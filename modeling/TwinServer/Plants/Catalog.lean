-- SUMMARY: The catalog of plants and the blobs it points to: what is written, and what a reader accepts.
import TwinServer.Plants.Creation

/-!
# The catalog

`src/plants/service.ts`: the input of a put, the catalog file with its pointers, and the encrypted
record of a plant. A reader checks again everything that a writer wrote.
-/

open Js Js.Json Thread

namespace Plants

/-! ## Input -/

/-- The expression `/^[a-zA-Z0-9][a-zA-Z0-9._-]{0,127}$/`. -/
def isValidId (s : String) : Bool :=
  match s.toList with
  | c :: cs => c.isAlphanum && cs.length ≤ 127 && cs.all fun c =>
      c.isAlphanum || c == '.' || c == '_' || c == '-'
  | [] => false

def validId (v : Option Json) : Option String := (asString? v).filter isValidId

def exactKeys (fields : Record Json) (keys : List String) : Bool :=
  fields.entries.length == keys.length && keys.all (Record.hasOwn fields)

/-- The error of `invalid()`. -/
def inputInvalid : AppError where
  code := "PLANT_INPUT_INVALID"
  message := "Expected revision, document object, and publication null or {name,coordinates:[longitude,latitude]}"
  status := 400
  category := .VALIDATION

def invalid {α : Type} : Except Thrown α := .error (.app inputInvalid)

/-- A finite number of the size at most the bound. -/
def isWithin (bound : Nat) (x : Number) : Bool :=
  x.isFinite && x.le bound && (Number.finite (-bound)).le x

def isName (name : String) : Bool := trim name != "" && utf16Length name ≤ 256

/-- `publication`. -/
@[local grind] def publication (v : Option Json) : Except Thrown (Option Publication) :=
  match v with
  | some .null => .ok none
  | some (.object fields) =>
    if exactKeys fields ["name", "coordinates"] then
      match Record.get? fields "name", Record.get? fields "coordinates" with
      | some (.string name), some (.array [.number longitude, .number latitude]) =>
        if isName name && isWithin 90 latitude && isWithin 180 longitude then
          .ok (some { name, longitude, latitude })
        else invalid
      | _, _ => invalid
    else invalid
  | _ => invalid

structure Update where
  revision : Nat
  document : Record Json
  publication : Option Publication

/-- The input of `put`. -/
@[local grind] def checkUpdate (id : String) (input : Option Json) : Except Thrown Update :=
  match input with
  | some (.object fields) =>
    if isValidId id && exactKeys fields ["revision", "document", "publication"] then
      match (asNumber? (Record.get? fields "revision")).bind Number.safeNat?, Record.get? fields "document" with
      | some revision, some (.object document) =>
        if revision < Number.maxSafe then do
          let publication ← publication (Record.get? fields "publication")
          return { revision, document, publication }
        else invalid
      | _, _ => invalid
    else invalid
  | _ => invalid

/-! ## Pointers -/

/-- The public projection of a plant. -/
structure Projection extends Publication where
  id : String
  deriving DecidableEq

structure Pointer where
  scope : String
  plant : String
  revision : Nat
  uri : String
  publication : Option Projection
  deriving DecidableEq

/-- What a pointer is about: no two pointers have one key. -/
def Pointer.key (p : Pointer) : String × String := (p.scope, p.plant)

def Projection.json (p : Projection) : Json :=
  .object [("id", .string p.id), ("name", .string p.name),
    ("coordinates", .array [.number p.longitude, .number p.latitude])]

def publicationJson : Option Projection → Json
  | none => .null
  | some p => p.json

def Pointer.json (p : Pointer) : Json :=
  .object [("scope", .string p.scope), ("plant", .string p.plant), ("revision", .number p.revision),
    ("uri", .string p.uri), ("publication", publicationJson p.publication)]

def catalogInvalid : AppError :=
  { code := "PLANT_CATALOG_INVALID", message := "Plant catalog is invalid", status := 503
    category := .INTERNAL }

section
variable [Services]

/-- The text of a catalog. -/
def catalogText (plants : List Pointer) : String :=
  stringify (.object [("version", .number 1), ("plants", .array (plants.map Pointer.json))])

/-- A SHA-256 digest. -/
def hashText (v : Option Json) : Option String := (asString? v).filter fun s => isHex64 s.toList

/-- The public projection that a pointer to a plant may have. -/
def projection (plant : String) (v : Option Json) : Option (Option Projection) :=
  match v with
  | some .null => some none
  | some (.object fields) => do
    guard (exactKeys fields ["id", "name", "coordinates"])
    let id ← validId (Record.get? fields "id")
    guard (sha256 id = plant)
    let published ← (publication (some (.object
      [("name", (Record.get? fields "name").getD .null),
        ("coordinates", (Record.get? fields "coordinates").getD .null)]))).toOption
    return published.map fun p => { p with id }
  | _ => none

def readPointer : Json → Option Pointer
  | .object fields => do
    let scope ← hashText (Record.get? fields "scope")
    let plant ← hashText (Record.get? fields "plant")
    let revision ← (asNumber? (Record.get? fields "revision")).bind Number.safeNat?
    guard (1 ≤ revision)
    let uri ← (asString? (Record.get? fields "uri")).filter (· != "")
    let publication ← projection plant (Record.get? fields "publication")
    return { scope, plant, revision, uri, publication }
  | _ => none

/-- The pointers of a catalog, each key once. -/
def readPointers (seen : List (String × String)) : List Json → Option (List Pointer)
  | [] => some []
  | v :: vs => do
    let p ← readPointer v
    guard (p.key ∉ seen)
    let ps ← readPointers (p.key :: seen) vs
    return p :: ps

variable (parse : String → Option Json)

def readCatalog (text : String) : Option (List Pointer) :=
  match parse text with
  | some v =>
    match v.get? "version", v.get? "plants" with
    | some version, some (.array items) =>
      if version.strictEq (.number 1) then readPointers [] items else none
    | _, _ => none
  | none => none

/-- `catalog`, on the content of the file if there is one. -/
@[local grind] def catalog (file : Option String) : Except Thrown (List Pointer) :=
  match file with
  | none => .ok []
  | some text =>
    match readCatalog parse text with
    | some plants => .ok plants
    | none => .error (.app catalogInvalid)

/-! ## What is written is read -/

def Publication.Valid (p : Publication) : Prop :=
  isName p.name ∧ isWithin 90 p.latitude ∧ isWithin 180 p.longitude

/-- The pointer is one that a reader accepts. -/
structure Pointer.Valid (p : Pointer) : Prop where
  scope : isHex64 p.scope.toList
  plant : isHex64 p.plant.toList
  revision : 1 ≤ p.revision ∧ p.revision ≤ Number.maxSafe
  uri : p.uri ≠ ""
  publication : ∀ q, p.publication = some q →
    isValidId q.id ∧ sha256 q.id = p.plant ∧ q.toPublication.Valid

variable {parse} {p : Pointer}

omit [Services] in
theorem isFinite_of_isWithin {bound : Nat} {x : Number} (h : isWithin bound x) : x.isFinite := by
  simp only [isWithin, Bool.and_eq_true] at h
  exact h.1.1

omit [Services] in
theorem publication_of_valid {q : Publication} (h : q.Valid) :
    publication (some (.object [("name", .string q.name),
      ("coordinates", .array [.number q.longitude, .number q.latitude])])) = .ok (some q) := by
  obtain ⟨hname, hlatitude, hlongitude⟩ := h
  have hkeys (v w : Json) : exactKeys [("name", v), ("coordinates", w)] ["name", "coordinates"] := rfl
  simp [publication, hkeys, Record.get?_cons, hname, hlatitude, hlongitude]

theorem projection_of_valid (h : p.Valid) :
    projection p.plant (some (publicationJson p.publication)) = some p.publication := by
  cases hp : p.publication with
  | none => rfl
  | some q =>
    obtain ⟨hid, hhash, hvalid⟩ := h.publication q hp
    have hkeys (u v w : Json) :
        exactKeys [("id", u), ("name", v), ("coordinates", w)] ["id", "name", "coordinates"] := rfl
    simp [publicationJson, Projection.json, projection, hkeys, Record.get?_cons, validId, asString?, Option.filter_some, hid,
      hhash, publication_of_valid hvalid, Except.toOption]

theorem readPointer_json (h : p.Valid) : readPointer p.json = some p := by
  have hrevision : Number.safeNat? (Number.ofNat p.revision) = some p.revision := by
    rw [Number.safeNat?_ofNat, if_pos h.revision.2]
  have hpublication := projection_of_valid h
  simp [readPointer, Pointer.json, Record.get?_cons, hashText, asString?, asNumber?, Option.filter_some, h.scope, h.plant,
    hrevision, h.revision.1, h.uri, hpublication]

theorem readPointers_json {plants : List Pointer} {seen : List (String × String)}
    (hvalid : ∀ p ∈ plants, p.Valid) (hkeys : (plants.map Pointer.key).Nodup)
    (hseen : ∀ p ∈ plants, p.key ∉ seen) :
    readPointers seen (plants.map Pointer.json) = some plants := by
  induction plants generalizing seen with
  | nil => rfl
  | cons p plants ih =>
      rw [List.map_cons, List.nodup_cons] at hkeys
      have hrest : readPointers (p.key :: seen) (plants.map Pointer.json) = some plants := by
        apply ih (fun q hq => hvalid q (List.mem_cons_of_mem _ hq)) hkeys.2
        intro q hq
        rw [List.mem_cons, not_or]
        refine ⟨fun h => hkeys.1 ?_, hseen q (List.mem_cons_of_mem _ hq)⟩
        exact h ▸ List.mem_map_of_mem hq
      simp [readPointers, readPointer_json (hvalid p List.mem_cons_self), hseen p List.mem_cons_self,
        hrest]

omit [Services] in
theorem written_json [Services] (h : p.Valid) : written p.json = p.json := by
  have hrevision : (Number.ofNat p.revision).isFinite := rfl
  cases hp : p.publication with
  | none => simp [Pointer.json, publicationJson, hp, written, writtenMembers, hrevision]
  | some q =>
    obtain ⟨-, -, hvalid⟩ := h.publication q hp
    simp [Pointer.json, publicationJson, hp, Projection.json, written, writtenMembers, writtenItems,
      hrevision, isFinite_of_isWithin hvalid.2.1, isFinite_of_isWithin hvalid.2.2]

/-- A catalog is read as it was written. -/
theorem readCatalog_catalogText (hreads : Reads parse) {plants : List Pointer}
    (hvalid : ∀ p ∈ plants, p.Valid) (hkeys : (plants.map Pointer.key).Nodup) :
    readCatalog parse (catalogText plants) = some plants := by
  have hwritten : (plants.map Pointer.json).map written = plants.map Pointer.json := by
    rw [List.map_map]
    exact List.map_congr_left fun p hp => written_json (hvalid p hp)
  unfold readCatalog catalogText
  rw [hreads]
  simp only [written, writtenMembers, writtenItems_eq, hwritten]
  exact readPointers_json hvalid hkeys fun _ _ => List.not_mem_nil

end

end Plants
