-- SUMMARY: The resolution of an identifier to another scheme through the mappings of a Twin, for every order of both.
import TwinServer.Base.Search
import TwinServer.Sharing.Service

/-!
# Identifier resolution

`resolveWithinTwin` of `src/resolver/service.ts` takes the first identifier that matches, the first mapping from it and
the first identifier that the mapping leads to, and looks at the scheme of no other one. So a triple that links the
identifier to the scheme is found in every order of the identifiers and the mappings only when no choice can go wrong.
-/

open Js Js.Json Except
open Sharing (fieldsOf stringOf)

namespace Resolver

section
variable [Runtime]

/-! ## The model -/

/-- `String(fieldsOf(item)[name])`. -/
def textField (item : Json) (name : String) : Except Thrown String := conversion (stringOf ((fieldsOf item).get? name))

/-- `idOf`. -/
def idOf (value : Json) : Except Thrown String :=
  conversion (stringOf (coalesce (coalesce (coalesce ((value.get? "data").bind (·.get? "objectId"))
    (value.get? "objectId")) ((fieldsOf value).get? "id")) (some (.string ""))))

/-- The scheme of an identifier is the given one, up to case. -/
def hasScheme (scheme : String) (item : Json) : Except Thrown Bool :=
  return toLowerCase (← textField item "scheme") == toLowerCase scheme

def identifierMatches (scheme value : String) (item : Json) : Except Thrown Bool := do
  if ← hasScheme scheme item then return (← textField item "value") == value
  return false

/-- The mapping starts at the source. -/
def startsAt (source item : Json) : Except Thrown Bool :=
  return (← textField item "source_identifier_id") == (← idOf source)

/-- The mapping leads to the identifier. -/
def leadsTo (mapping item : Json) : Except Thrown Bool :=
  return (← idOf item) == (← textField mapping "target_identifier_id")

structure Resolution where
  source : Json
  mapping : Json
  target : Json

def notFound {α : Type} (code message : String) : Except Thrown α :=
  .error (.app { code, message, status := 404, category := .OBJECTID })

/-- The children of a Twin by their type, as the chain gives them. -/
abbrev Children := String → String → Except Thrown (List Json)

def resolveWithinTwin (getTwinChildren : Children) (twinId sourceScheme value targetScheme : String) :
    Except Thrown Resolution := do
  let identifiers ← getTwinChildren twinId "OIDTwinIdentifier"
  match ← identifiers.findM? (identifierMatches sourceScheme value) with
  | none => notFound "IDENTIFIER_NOT_FOUND" "Source identifier was not found"
  | some source =>
    let mappings ← getTwinChildren twinId "OIDTwinIdentifierMapping"
    match ← mappings.findM? (startsAt source) with
    | none => notFound "IDENTIFIER_MAPPING_NOT_FOUND" "Identifier mapping was not found"
    | some mapping =>
      match ← identifiers.findM? (leadsTo mapping) with
      | none => notFound "TARGET_IDENTIFIER_NOT_FOUND" "Mapped target identifier was not found"
      | some target =>
        if ← hasScheme targetScheme target then return { source, mapping, target }
        else notFound "TARGET_IDENTIFIER_NOT_FOUND" "Mapped target identifier was not found"

/-- `resolveTo`. -/
def resolveTo := resolveWithinTwin

def mappingTypes : Record String :=
  [("1", "EQUIVALENT"), ("2", "ALIAS"), ("3", "RESOLVES_TO"), ("4", "DERIVED_FROM"), ("5", "EXTERNAL")]

/-- `mappingTypes[String(type)] ?? String(type ?? "UNKNOWN")`. What every object inherits is there as well, and is no
text. -/
def mappingTypeOf (type : Option Json) : Except Thrown (Option String) := do
  let key ← conversion (stringOf type)
  if inheritedProperties.contains key then return none
  match mappingTypes.get? key with
  | some name => return some name
  | none => return some (← conversion (stringOf (coalesce type (some (.string "UNKNOWN")))))

/-- The one match of a global resolution. -/
structure Match where
  twinId : String
  scheme : String
  value : String
  mappingType : Option String

/-- `resolveToGlobal`, where the index lists the Twins that have the identifier. -/
def resolveToGlobal (getTwinChildren : Children) (findIndexed : String → String → Except Thrown (List String))
    (sourceScheme value targetScheme : String) : Except Thrown Match := do
  match ← findIndexed sourceScheme value with
  | [] => notFound "IDENTIFIER_NOT_FOUND" "Source identifier was not found"
  | twinId :: _ =>
    let r ← resolveWithinTwin getTwinChildren twinId sourceScheme value targetScheme
    return { twinId, scheme := ← textField r.target "scheme", value := ← textField r.target "value"
             mappingType := ← mappingTypeOf ((fieldsOf r.mapping).get? "mapping_type") }

/-! ## The triples of a Twin -/

variable (sourceScheme value targetScheme : String)

/-- The mapping links a matching identifier to an identifier of the scheme. -/
structure Links (identifiers mappings : List Json) (r : Resolution) : Prop where
  source : r.source ∈ identifiers ∧ identifierMatches sourceScheme value r.source = .ok true
  mapping : r.mapping ∈ mappings ∧ startsAt r.source r.mapping = .ok true
  target : r.target ∈ identifiers ∧ leadsTo r.mapping r.target = .ok true
  scheme : hasScheme targetScheme r.target = .ok true

/-- A chain that gives the identifiers and the mappings of a Twin. -/
def holding (identifiers mappings : List Json) : Children := fun _ type =>
  .ok (if type = "OIDTwinIdentifier" then identifiers
    else if type = "OIDTwinIdentifierMapping" then mappings else [])

variable {sourceScheme value targetScheme}

/-- Resolution takes the first of each. -/
theorem resolveWithinTwin_eq_ok {getTwinChildren : Children} {twinId : String} {r : Resolution} :
    resolveWithinTwin getTwinChildren twinId sourceScheme value targetScheme = .ok r ↔ ∃ identifiers mappings,
      getTwinChildren twinId "OIDTwinIdentifier" = .ok identifiers ∧
        getTwinChildren twinId "OIDTwinIdentifierMapping" = .ok mappings ∧
        identifiers.findM? (identifierMatches sourceScheme value) = .ok (some r.source) ∧
        mappings.findM? (startsAt r.source) = .ok (some r.mapping) ∧
        identifiers.findM? (leadsTo r.mapping) = .ok (some r.target) ∧ hasScheme targetScheme r.target = .ok true := by
  constructor
  · intro h
    obtain ⟨identifiers, hidentifiers, h⟩ := bind_eq_ok.mp h
    obtain ⟨source, hsource, h⟩ := bind_eq_ok.mp h
    cases source with
    | none => cases h
    | some source =>
      obtain ⟨mappings, hmappings, h⟩ := bind_eq_ok.mp h
      obtain ⟨mapping, hmapping, h⟩ := bind_eq_ok.mp h
      cases mapping with
      | none => cases h
      | some mapping =>
        obtain ⟨target, htarget, h⟩ := bind_eq_ok.mp h
        cases target with
        | none => cases h
        | some target =>
          obtain ⟨b, hscheme, h⟩ := bind_eq_ok.mp h
          cases b with
          | false => cases h
          | true =>
            obtain rfl := pure_eq_ok.mp h
            exact ⟨identifiers, mappings, hidentifiers, hmappings, hsource, hmapping, htarget, hscheme⟩
  · rintro ⟨identifiers, mappings, hidentifiers, hmappings, hsource, hmapping, htarget, hscheme⟩
    refine bind_eq_ok.mpr ⟨_, hidentifiers, bind_eq_ok.mpr ⟨_, hsource, ?_⟩⟩
    refine bind_eq_ok.mpr ⟨_, hmappings, bind_eq_ok.mpr ⟨_, hmapping, ?_⟩⟩
    exact bind_eq_ok.mpr ⟨_, htarget, bind_eq_ok.mpr ⟨true, hscheme, rfl⟩⟩

theorem resolveTo_eq_ok {identifiers mappings : List Json} {twinId : String} {r : Resolution} :
    resolveTo (holding identifiers mappings) twinId sourceScheme value targetScheme = .ok r ↔
      identifiers.findM? (identifierMatches sourceScheme value) = .ok (some r.source) ∧
        mappings.findM? (startsAt r.source) = .ok (some r.mapping) ∧
        identifiers.findM? (leadsTo r.mapping) = .ok (some r.target) ∧ hasScheme targetScheme r.target = .ok true := by
  rw [resolveTo, resolveWithinTwin_eq_ok]
  simp [holding]

/-- What is returned is a triple of the Twin. -/
theorem links_of_resolveTo {identifiers mappings : List Json} {twinId : String} {r : Resolution}
    (h : resolveTo (holding identifiers mappings) twinId sourceScheme value targetScheme = .ok r) :
    Links sourceScheme value targetScheme identifiers mappings r := by
  obtain ⟨hsource, hmapping, htarget, hscheme⟩ := resolveTo_eq_ok.mp h
  exact ⟨mem_of_findM? hsource, mem_of_findM? hmapping, mem_of_findM? htarget, hscheme⟩

/-- A global resolution answers in the scheme that is asked for, and from the first Twin of the index. -/
theorem scheme_of_resolveToGlobal {getTwinChildren : Children}
    {findIndexed : String → String → Except Thrown (List String)} {found : Match}
    (h : resolveToGlobal getTwinChildren findIndexed sourceScheme value targetScheme = .ok found) :
    toLowerCase found.scheme = toLowerCase targetScheme ∧
      ∃ rest r, findIndexed sourceScheme value = .ok (found.twinId :: rest) ∧
        resolveWithinTwin getTwinChildren found.twinId sourceScheme value targetScheme = .ok r ∧
        textField r.target "value" = .ok found.value := by
  obtain ⟨twins, htwins, h⟩ := bind_eq_ok.mp h
  cases twins with
  | nil => cases h
  | cons twinId rest =>
    obtain ⟨r, hr, h⟩ := bind_eq_ok.mp h
    obtain ⟨scheme, hscheme, h⟩ := bind_eq_ok.mp h
    obtain ⟨value', hvalue, h⟩ := bind_eq_ok.mp h
    obtain ⟨mappingType, -, h⟩ := bind_eq_ok.mp h
    obtain rfl := pure_eq_ok.mp h
    obtain ⟨-, -, -, -, -, -, -, hscheme'⟩ := resolveWithinTwin_eq_ok.mp hr
    rw [hasScheme, hscheme] at hscheme'
    exact ⟨by simpa using pure_eq_ok.mp hscheme', rest, r, htwins, hr, hvalue⟩

/-! ## Every order -/

variable (sourceScheme value targetScheme)

/-- In every order of the identifiers and of the mappings the resolution succeeds exactly when there is a triple, and
returns one. -/
def Complete (identifiers mappings : List Json) : Prop :=
  ∀ (twinId : String) (identifiers' mappings' : List Json), identifiers'.Perm identifiers → mappings'.Perm mappings →
    ((∃ r, resolveTo (holding identifiers' mappings') twinId sourceScheme value targetScheme = .ok r) ↔
      ∃ r, Links sourceScheme value targetScheme identifiers mappings r) ∧
    ∀ r, resolveTo (holding identifiers' mappings') twinId sourceScheme value targetScheme = .ok r →
      Links sourceScheme value targetScheme identifiers mappings r

/-- No choice goes wrong: every matching identifier has a mapping, every mapping from it leads to an identifier, and
every identifier it leads to has the scheme. -/
structure Unambiguous (identifiers mappings : List Json) : Prop where
  source : ∀ i ∈ identifiers, Decides (identifierMatches sourceScheme value) i
  mapping : ∀ s ∈ identifiers, identifierMatches sourceScheme value s = .ok true →
    (∀ m ∈ mappings, Decides (startsAt s) m) ∧ ∃ m ∈ mappings, startsAt s m = .ok true
  target : ∀ s ∈ identifiers, identifierMatches sourceScheme value s = .ok true →
    ∀ m ∈ mappings, startsAt s m = .ok true →
      (∀ i ∈ identifiers, Decides (leadsTo m) i) ∧ (∃ t ∈ identifiers, leadsTo m t = .ok true) ∧
        ∀ t ∈ identifiers, leadsTo m t = .ok true → hasScheme targetScheme t = .ok true

variable {sourceScheme value targetScheme}

theorem Links.of_perm {identifiers identifiers' mappings mappings' : List Json} {r : Resolution}
    (hidentifiers : identifiers'.Perm identifiers) (hmappings : mappings'.Perm mappings)
    (h : Links sourceScheme value targetScheme identifiers' mappings' r) :
    Links sourceScheme value targetScheme identifiers mappings r :=
  ⟨⟨hidentifiers.mem_iff.mp h.source.1, h.source.2⟩, ⟨hmappings.mem_iff.mp h.mapping.1, h.mapping.2⟩,
    ⟨hidentifiers.mem_iff.mp h.target.1, h.target.2⟩, h.scheme⟩

/-- Where no choice goes wrong, a matching identifier is resolved. -/
theorem Unambiguous.exists_resolveTo {identifiers mappings : List Json} (twinId : String)
    (h : Unambiguous sourceScheme value targetScheme identifiers mappings)
    (hsource : ∃ s ∈ identifiers, identifierMatches sourceScheme value s = .ok true) :
    ∃ r, resolveTo (holding identifiers mappings) twinId sourceScheme value targetScheme = .ok r := by
  obtain ⟨source, hsource⟩ := exists_findM? h.source hsource
  obtain ⟨hs, hmatches⟩ := mem_of_findM? hsource
  obtain ⟨hdecides, hlink⟩ := h.mapping source hs hmatches
  obtain ⟨mapping, hmapping⟩ := exists_findM? hdecides hlink
  obtain ⟨hm, hstarts⟩ := mem_of_findM? hmapping
  obtain ⟨hdecides', htarget, hscheme⟩ := h.target source hs hmatches mapping hm hstarts
  obtain ⟨target, htarget⟩ := exists_findM? hdecides' htarget
  obtain ⟨ht, hleads⟩ := mem_of_findM? htarget
  exact ⟨⟨source, mapping, target⟩,
    resolveTo_eq_ok.mpr ⟨hsource, hmapping, htarget, hscheme target ht hleads⟩⟩

theorem Unambiguous.of_perm {identifiers identifiers' mappings mappings' : List Json}
    (hidentifiers : identifiers'.Perm identifiers) (hmappings : mappings'.Perm mappings)
    (h : Unambiguous sourceScheme value targetScheme identifiers mappings) :
    Unambiguous sourceScheme value targetScheme identifiers' mappings' := by
  constructor <;> simp only [hidentifiers.mem_iff, hmappings.mem_iff]
  · exact h.source
  · exact h.mapping
  · exact h.target

/-! ### Orders that show a wrong choice -/

/-- The resolution succeeds in every order. -/
def Resolved (sourceScheme value targetScheme : String) (identifiers mappings : List Json) : Prop :=
  ∀ identifiers' mappings' : List Json, identifiers'.Perm identifiers → mappings'.Perm mappings →
    ∃ r, resolveTo (holding identifiers' mappings') "" sourceScheme value targetScheme = .ok r

variable {identifiers mappings : List Json} {s m t i : Json}

theorem decides_leadsTo : Decides (leadsTo m) i ↔
    (∃ id, idOf i = .ok id) ∧ ∃ target, textField m "target_identifier_id" = .ok target := by
  constructor
  · rintro ⟨b, hb⟩
    obtain ⟨id, hid, hb⟩ := bind_eq_ok.mp hb
    obtain ⟨target, htarget, -⟩ := bind_eq_ok.mp hb
    exact ⟨⟨id, hid⟩, target, htarget⟩
  · rintro ⟨⟨id, hid⟩, target, htarget⟩
    exact ⟨id == target, bind_eq_ok.mpr ⟨id, hid, bind_eq_ok.mpr ⟨target, htarget, rfl⟩⟩⟩

theorem idOf_of_leadsTo (h : leadsTo m t = .ok true) : idOf t = textField m "target_identifier_id" := by
  obtain ⟨id, hid, h⟩ := bind_eq_ok.mp h
  obtain ⟨target, htarget, h⟩ := bind_eq_ok.mp h
  have heq : id = target := by simpa using pure_eq_ok.mp h
  rw [hid, htarget, heq]

theorem exists_idOf_of_startsAt (h : startsAt s m = .ok true) : ∃ id, idOf s = .ok id := by
  obtain ⟨_, _, h⟩ := bind_eq_ok.mp h
  obtain ⟨id, hid, -⟩ := bind_eq_ok.mp h
  exact ⟨id, hid⟩

/-- An identifier that is the first to match is the source. -/
theorem Resolved.of_source {identifiers' mappings' : List Json}
    (h : Resolved sourceScheme value targetScheme identifiers mappings) (hperm : identifiers'.Perm identifiers)
    (hperm' : mappings'.Perm mappings)
    (hsource : identifiers'.findM? (identifierMatches sourceScheme value) = .ok (some s)) :
    ∃ m t, mappings'.findM? (startsAt s) = .ok (some m) ∧ identifiers'.findM? (leadsTo m) = .ok (some t) ∧
      hasScheme targetScheme t = .ok true := by
  obtain ⟨r, hr⟩ := h identifiers' mappings' hperm hperm'
  obtain ⟨hs, hm, ht, hscheme⟩ := resolveTo_eq_ok.mp hr
  obtain rfl : s = r.source := Option.some.inj (Except.ok.inj (hsource.symm.trans hs))
  exact ⟨r.mapping, r.target, hm, ht, hscheme⟩

theorem Resolved.source (h : Resolved sourceScheme value targetScheme identifiers mappings) :
    (∀ i ∈ identifiers, Decides (identifierMatches sourceScheme value) i) ∧
      ∃ s ∈ identifiers, identifierMatches sourceScheme value s = .ok true := by
  refine exists_findM?_iff.mp fun identifiers' hperm => ?_
  obtain ⟨r, hr⟩ := h identifiers' mappings hperm (.refl _)
  exact ⟨r.source, (resolveTo_eq_ok.mp hr).1⟩

theorem Resolved.mapping (h : Resolved sourceScheme value targetScheme identifiers mappings) (hs : s ∈ identifiers)
    (hmatches : identifierMatches sourceScheme value s = .ok true) :
    (∀ m ∈ mappings, Decides (startsAt s) m) ∧ ∃ m ∈ mappings, startsAt s m = .ok true := by
  obtain ⟨rest, hrest⟩ := List.exists_perm_cons hs
  refine exists_findM?_iff.mp fun mappings' hperm => ?_
  obtain ⟨m, -, hm, -⟩ := h.of_source hrest hperm (findM?_cons_true hmatches)
  exact ⟨m, hm⟩

/-- A mapping from an identifier that is the first to match leads to an identifier of the scheme. -/
theorem Resolved.of_mapping {identifiers' : List Json}
    (h : Resolved sourceScheme value targetScheme identifiers mappings) (hperm : identifiers'.Perm identifiers)
    (hsource : identifiers'.findM? (identifierMatches sourceScheme value) = .ok (some s)) (hm : m ∈ mappings)
    (hstarts : startsAt s m = .ok true) :
    ∃ t, identifiers'.findM? (leadsTo m) = .ok (some t) ∧ hasScheme targetScheme t = .ok true := by
  obtain ⟨rest, hrest⟩ := List.exists_perm_cons hm
  obtain ⟨m', t, hm', ht⟩ := h.of_source hperm hrest hsource
  obtain rfl : m = m' := Option.some.inj (Except.ok.inj ((findM?_cons_true hstarts).symm.trans hm'))
  exact ⟨t, ht⟩

/-- An identifier that a mapping leads to has the scheme: it comes first in some order in which the mapping is
taken. -/
theorem Resolved.scheme (h : Resolved sourceScheme value targetScheme identifiers mappings) (hs : s ∈ identifiers)
    (hmatches : identifierMatches sourceScheme value s = .ok true) (hm : m ∈ mappings)
    (hstarts : startsAt s m = .ok true) (ht : t ∈ identifiers) (hleads : leadsTo m t = .ok true) :
    hasScheme targetScheme t = .ok true := by
  -- an order in which `t` is found, and in which the mapping is taken
  suffices hsuffices : ∃ identifiers' s', List.Perm identifiers' identifiers ∧
      identifiers'.findM? (identifierMatches sourceScheme value) = .ok (some s') ∧ startsAt s' m = .ok true ∧
      identifiers'.findM? (leadsTo m) = .ok (some t) by
    obtain ⟨identifiers', s', hperm, hsource, hstarts', hfound⟩ := hsuffices
    obtain ⟨t', ht', hscheme⟩ := h.of_mapping hperm hsource hm hstarts'
    obtain rfl : t = t' := Option.some.inj (Except.ok.inj (hfound.symm.trans ht'))
    exact hscheme
  by_cases heq : t = s
  · subst heq
    obtain ⟨rest, hrest⟩ := List.exists_perm_cons ht
    exact ⟨_, t, hrest, findM?_cons_true hmatches, hstarts, findM?_cons_true hleads⟩
  · obtain ⟨rest, hrest⟩ := List.exists_perm_cons_cons hs ht (Ne.symm heq)
    obtain ⟨found, hfound, -⟩ := h.of_mapping hrest (findM?_cons_true hmatches) hm hstarts
    obtain ⟨b, hb⟩ := decides_of_findM?_cons hfound
    cases b with
    | false =>
      exact ⟨_, s, hrest, findM?_cons_true hmatches, hstarts,
        (findM?_cons_false hb).trans (findM?_cons_true hleads)⟩
    | true =>
      -- the mapping leads from the source to an identifier with the id of the source, and `t` has this id as well
      have hid : idOf t = idOf s := (idOf_of_leadsTo hleads).trans (idOf_of_leadsTo hb).symm
      obtain ⟨rest', hrest'⟩ := List.exists_perm_cons_cons ht hs heq
      obtain ⟨c, hc⟩ := h.source.1 t ht
      cases c with
      | true =>
        refine ⟨_, t, hrest', findM?_cons_true hc, ?_, findM?_cons_true hleads⟩
        rw [startsAt, hid]
        exact hstarts
      | false =>
        exact ⟨_, s, hrest', (findM?_cons_false hc).trans (findM?_cons_true hmatches), hstarts,
          findM?_cons_true hleads⟩

theorem Resolved.decides_target (h : Resolved sourceScheme value targetScheme identifiers mappings)
    (hs : s ∈ identifiers) (hmatches : identifierMatches sourceScheme value s = .ok true) (hm : m ∈ mappings)
    (hstarts : startsAt s m = .ok true) (hi : i ∈ identifiers) : Decides (leadsTo m) i := by
  obtain ⟨rest, hrest⟩ := List.exists_perm_cons hs
  obtain ⟨found, hfound, -⟩ := h.of_mapping hrest (findM?_cons_true hmatches) hm hstarts
  have htarget := (decides_leadsTo.mp (decides_of_findM?_cons hfound)).2
  obtain ⟨b, hb⟩ := h.source.1 i hi
  cases b with
  | true =>
    -- the identifier matches, so a mapping is compared with its id
    obtain ⟨-, m', -, hstarts'⟩ := h.mapping hi hb
    exact decides_leadsTo.mpr ⟨exists_idOf_of_startsAt hstarts', htarget⟩
  | false =>
    have hne : i ≠ s := by
      rintro rfl
      cases hb.symm.trans hmatches
    obtain ⟨rest', hrest'⟩ := List.exists_perm_cons_cons hi hs hne
    obtain ⟨found', hfound', -⟩ := h.of_mapping hrest'
      ((findM?_cons_false hb).trans (findM?_cons_true hmatches)) hm hstarts
    exact decides_of_findM?_cons hfound'

theorem Resolved.unambiguous (h : Resolved sourceScheme value targetScheme identifiers mappings) :
    Unambiguous sourceScheme value targetScheme identifiers mappings where
  source := h.source.1
  mapping s hs hmatches := h.mapping hs hmatches
  target s hs hmatches m hm hstarts := by
    obtain ⟨rest, hrest⟩ := List.exists_perm_cons hs
    obtain ⟨t, ht, -⟩ := h.of_mapping hrest (findM?_cons_true hmatches) hm hstarts
    obtain ⟨hmem, hleads⟩ := mem_of_findM? ht
    exact ⟨fun i hi => h.decides_target hs hmatches hm hstarts hi, ⟨t, hrest.mem_iff.mp hmem, hleads⟩,
      fun t ht hleads => h.scheme hs hmatches hm hstarts ht hleads⟩

variable (sourceScheme value targetScheme identifiers mappings)

/-- **Complete resolution.** Resolution finds a triple in every order, whenever there is one, exactly when no choice
can go wrong. -/
theorem complete_iff : Complete sourceScheme value targetScheme identifiers mappings ↔
    (¬ ∃ r, Links sourceScheme value targetScheme identifiers mappings r) ∨
      Unambiguous sourceScheme value targetScheme identifiers mappings := by
  constructor
  · intro h
    by_cases hlinks : ∃ r, Links sourceScheme value targetScheme identifiers mappings r
    · have hresolved : Resolved sourceScheme value targetScheme identifiers mappings :=
        fun identifiers' mappings' hperm hperm' => (h "" identifiers' mappings' hperm hperm').1.mpr hlinks
      exact .inr hresolved.unambiguous
    · exact .inl hlinks
  · intro h twinId identifiers' mappings' hperm hperm'
    have hsound (r : Resolution)
        (hr : resolveTo (holding identifiers' mappings') twinId sourceScheme value targetScheme = .ok r) :
        Links sourceScheme value targetScheme identifiers mappings r :=
      (links_of_resolveTo hr).of_perm hperm hperm'
    refine ⟨⟨fun ⟨r, hr⟩ => ⟨r, hsound r hr⟩, fun hlinks => ?_⟩, hsound⟩
    rcases h with hnone | hunambiguous
    · exact absurd hlinks hnone
    · obtain ⟨r, hr⟩ := hlinks
      exact (hunambiguous.of_perm hperm hperm').exists_resolveTo twinId
        ⟨r.source, hperm.mem_iff.mpr hr.source.1, hr.source.2⟩

end

/-! ## A Twin with two mappings -/

def identifierObject (id scheme value : String) : Json :=
  .object [("objectId", .string id), ("fields", .object [("scheme", .string scheme), ("value", .string value)])]

def mappingObject (source target : String) : Json :=
  .object [("fields", .object [("source_identifier_id", .string source), ("target_identifier_id", .string target)])]

/-- The mapping to the requested scheme is the second one, so it is not found. -/
theorem first_mapping_hides : ¬ ∀ sourceScheme value targetScheme identifiers mappings,
    @Complete Runtime.ascii sourceScheme value targetScheme identifiers mappings := by
  intro h
  let _ := Runtime.ascii
  have hcomplete := (h "GS1" "9506" "SAP"
    [identifierObject "0x1" "GS1" "9506", identifierObject "0x2" "ERP" "17", identifierObject "0x3" "SAP" "EQ-42"]
    [mappingObject "0x1" "0x2", mappingObject "0x1" "0x3"] "0xtwin" _ _ (.refl _) (.refl _)).1
  obtain ⟨r, hr⟩ := hcomplete.mpr ⟨⟨_, _, _⟩, ⟨List.mem_cons_self, rfl⟩,
    ⟨List.mem_cons_of_mem _ List.mem_cons_self, rfl⟩,
    ⟨List.mem_cons_of_mem _ (List.mem_cons_of_mem _ List.mem_cons_self), rfl⟩, rfl⟩
  cases hr

end Resolver
