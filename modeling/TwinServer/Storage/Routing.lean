-- SUMMARY: The storage router, and exactly when what is stored is read back from where it was put.
import TwinServer.Storage.Providers

/-!
# The storage router

`StorageRouter` of `src/storage/storage-router.ts`, with `createRouter` and `validateStorage`.
A write goes to the provider that the category is routed to, every other call to the first
provider that supports the URI.
-/

open Js

namespace Storage

/-- A provider of a configuration; the planned types have no implementation. -/
inductive StorageProviderConfig where
  | filesystem (config : FilesystemStorageConfig)
  | s3 (config : S3StorageConfig)
  | planned (type : String) (required : Bool)

def StorageProviderConfig.required : StorageProviderConfig → Bool
  | .filesystem config => config.required
  | .s3 config => config.required
  | .planned _ required => required

structure StorageConfig where
  defaultProvider : String
  providers : Record StorageProviderConfig
  routes : Record String

structure StorageRouter where
  config : StorageConfig
  providers : Record StorageProvider

/-! ## Configuration -/

def configError (code message : String) : AppError where
  code := code
  message := message
  status := 500
  category := .VALIDATION

/-- Whether `providers[name]` is something. -/
def StorageConfig.has (config : StorageConfig) (name : String) : Bool :=
  config.providers.hasOwn name || name ∈ inheritedProperties

def validateProvider (name : String) : StorageProviderConfig → Except Thrown Unit
  | .filesystem config =>
    throwIf (config.basePath = "") (configError "CONFIG_STORAGE_BASE_PATH_REQUIRED"
      ("Filesystem provider '" ++ name ++ "' requires basePath"))
  | .s3 config => do
    throwIf (config.bucket = "") (configError "CONFIG_STORAGE_BUCKET_REQUIRED"
      ("S3 provider '" ++ name ++ "' requires bucket"))
    throwIf (config.region = "") (configError "CONFIG_STORAGE_REGION_REQUIRED"
      ("S3 provider '" ++ name ++ "' requires region"))
    throwIf ((config.accessKeyEnv.getD "" != "") != (config.secretKeyEnv.getD "" != ""))
      (configError "CONFIG_STORAGE_CREDENTIAL_PAIR_REQUIRED" ("S3 provider '" ++ name ++
        "' must configure both credential names or use the default AWS credential chain"))
  | .planned _ _ => .ok ()

def validateStorage (config : StorageConfig) : Except Thrown Unit := do
  throwIf (!config.has config.defaultProvider) (configError "CONFIG_STORAGE_DEFAULT_MISSING"
    ("Default storage provider '" ++ config.defaultProvider ++ "' is not configured"))
  config.routes.entries.forM fun route =>
    throwIf (!config.has route.2) (configError "CONFIG_STORAGE_ROUTE_INVALID"
      ("Storage route '" ++ route.1 ++ "' references unknown provider '" ++ route.2 ++ "'"))
  config.providers.entries.forM fun provider => validateProvider provider.1 provider.2

def notImplemented (type : String) : AppError where
  code := "STORAGE_PROVIDER_NOT_IMPLEMENTED"
  message := "Storage provider '" ++ type ++ "' is planned but not implemented"
  status := 501
  category := .CONNECTOR

/-- The loop of `createRouter`: a planned type that nothing refers to is left out. -/
def createProviders (config : StorageConfig) :
    Record StorageProviderConfig → Except Thrown (Record StorageProvider)
  | [] => .ok []
  | (name, .filesystem c) :: rest => do
    let providers ← createProviders config rest
    return (name, .filesystem c) :: providers
  | (name, .s3 c) :: rest => do
    let providers ← createProviders config rest
    return (name, .s3 c) :: providers
  | (name, .planned type required) :: rest => do
    throwIf (name = config.defaultProvider ∨ name ∈ config.routes.entries.map Prod.snd ∨ required)
      (notImplemented type)
    createProviders config rest

def createRouter (config : StorageConfig) : Except Thrown StorageRouter := do
  let providers ← createProviders config config.providers.entries
  return { config, providers }

/-! ## The router -/

namespace StorageRouter

section
variable [Platform] (router : StorageRouter)

omit [Platform] in
def providerNameFor (category : Option String) : Property :=
  let category := category.getD "artifact"
  match router.config.routes.get? category with
  | some name => .own name
  | none =>
    if category ∈ inheritedProperties then .inherited category
    else .own router.config.defaultProvider

omit [Platform] in
def unavailable (name : Property) : AppError where
  code := "STORAGE_PROVIDER_UNAVAILABLE"
  message := "Storage provider '" ++ name.text ++ "' is unavailable"
  status := 503
  category := .CONNECTOR

omit [Platform] in
/-- The provider of a category, with its name. -/
def providerFor (category : Option String) : Except Thrown (String × StorageProvider) :=
  match router.providerNameFor category with
  | .inherited property => .error (.app (unavailable (.inherited property)))
  | .own name =>
    match router.providers.get? name with
    | some provider => .ok (name, provider)
    | none => .error (.app (unavailable (.own name)))

def supportsUri (uri : String) : Bool := router.providers.entries.any (·.2.supportsUri uri)

/-- The first provider that supports the URI, with its name. -/
def providerForUri (uri : String) : Except Thrown (String × StorageProvider) :=
  match router.providers.entries.find? (·.2.supportsUri uri) with
  | some provider => .ok provider
  | none => .error (.app {
      code := "STORAGE_URI_UNSUPPORTED"
      message := "No configured storage provider owns this URI"
      status := 400, category := .VALIDATION })

def store (input : StoreInput) (w : World) : Except Thrown (StoredObject × World) := do
  let (_, provider) ← router.providerFor input.category
  provider.store input w

def read (uri : String) (w : World) : Except Thrown Bytes := do
  let (_, provider) ← router.providerForUri uri
  provider.read uri w

def isThere (uri : String) (w : World) : Except Thrown Bool := do
  let (_, provider) ← router.providerForUri uri
  provider.isThere uri w

def remove (uri : String) (w : World) : Except Thrown World := do
  let (_, provider) ← router.providerForUri uri
  provider.remove uri w

end

end StorageRouter

/-! ## Round trips -/

section
variable [Platform] (router : StorageRouter) (input : StoreInput)

/-- Whatever is stored, the URI returned leads back: to the provider that stored it, and there to
the object itself. -/
def RoundTrip (w : World) : Prop :=
  ∀ stored w', router.store input w = .ok (stored, w') →
    ∃ name provider location, router.providerFor input.category = .ok (name, provider) ∧
      provider.address input = .ok (location, stored.uri) ∧
      router.providerForUri stored.uri = .ok (name, provider) ∧
      router.read stored.uri w' = .ok input.data ∧
      router.isThere stored.uri w' = .ok true ∧
      ∃ w'', router.remove stored.uri w' = .ok w'' ∧ w'' location = none

/-- The provider that the category is routed to takes its URIs for its own, no provider before it
supports the URI, and a file that is already there has the bytes. -/
def Owned (w : World) : Prop :=
  ∀ name provider location uri, router.providerFor input.category = .ok (name, provider) →
    provider.address input = .ok (location, uri) →
      provider.OwnUris location ∧
      (∀ other ∈ router.providers.entries.takeWhile (·.1 ≠ name), ¬ other.2.supportsUri uri) ∧
      (∀ config, provider = .filesystem config → ∀ bytes, w location = some bytes →
        bytes = input.data)

variable {router input} {w w' : World} {name : String} {provider : StorageProvider}
  {location : Location} {uri : String}

omit [Platform] in
/-- The first element with a property, by its key. -/
theorem find?_eq_some_iff_takeWhile {α : Type} {o : Record α} (hkeys : (o.map Prod.fst).Nodup)
    {p : String × α → Bool} {a : α} (hmem : (name, a) ∈ o) (hp : p (name, a)) :
    o.find? p = some (name, a) ↔ ∀ e ∈ o.takeWhile (·.1 ≠ name), ¬ p e := by
  induction o with
  | nil => cases hmem
  | cons e o ih =>
      obtain ⟨hnew, hkeys⟩ := List.nodup_cons.mp hkeys
      by_cases hname : e.1 = name
      · have he : e = (name, a) := by
          rcases List.mem_cons.mp hmem with he | hmem
          · exact he.symm
          · exact absurd (hname ▸ List.mem_map_of_mem hmem) hnew
        rw [List.takeWhile_cons_of_neg (by simpa using hname), he, List.find?_cons_of_pos hp]
        exact ⟨fun _ _ h => (by cases h), fun _ => rfl⟩
      · have hmem' : (name, a) ∈ o := by
          rcases List.mem_cons.mp hmem with he | hmem
          · exact absurd (congrArg Prod.fst he.symm) hname
          · exact hmem
        rw [List.takeWhile_cons_of_pos (by simpa using hname), List.forall_mem_cons,
          ← ih hkeys hmem']
        by_cases hpe : p e
        · rw [List.find?_cons_of_pos hpe]
          refine ⟨fun h => ?_, fun h => absurd hpe h.1⟩
          exact absurd (congrArg Prod.fst (Option.some.inj h)) hname
        · rw [List.find?_cons_of_neg hpe]
          exact ⟨fun h => ⟨hpe, h⟩, fun h => h.2⟩

omit [Platform] in
theorem mem_of_providerFor {category : Option String}
    (h : router.providerFor category = .ok (name, provider)) :
    (name, provider) ∈ router.providers.entries := by
  unfold StorageRouter.providerFor at h
  split at h
  · cases h
  · split at h
    · next hget =>
      obtain ⟨rfl, rfl⟩ := Prod.mk.inj (Except.ok.inj h)
      exact Record.mem_entries.mpr hget
    · cases h

theorem providerForUri_eq_ok (h : router.providerFor input.category = .ok (name, provider))
    (hsupports : provider.supportsUri uri) :
    router.providerForUri uri = .ok (name, provider) ↔
      ∀ other ∈ router.providers.entries.takeWhile (·.1 ≠ name), ¬ other.2.supportsUri uri := by
  rw [← find?_eq_some_iff_takeWhile (Record.nodup_entries _) (mem_of_providerFor h) hsupports]
  unfold StorageRouter.providerForUri
  split
  · next found hfound =>
    rw [hfound]
    exact ⟨fun h => congrArg some (Except.ok.inj h), fun h => congrArg Except.ok (Option.some.inj h)⟩
  · next hfound =>
    rw [hfound]
    exact ⟨fun h => (by cases h), fun h => (by cases h)⟩

/-- What a provider leaves behind after it stored an object. -/
theorem store_eq_ok {stored : StoredObject} (h : provider.store input w = .ok (stored, w')) :
    ∃ location, provider.address input = .ok (location, stored.uri) ∧
      ((w' location = some input.data ∧ ∀ config, provider = .filesystem config → w location = none) ∨
        ∃ config bytes, provider = .filesystem config ∧ w location = some bytes ∧ w' = w) := by
  unfold StorageProvider.store at h
  obtain ⟨⟨location, uri⟩, haddress, h⟩ := Except.bind_eq_ok.mp h
  obtain ⟨rfl, rfl⟩ := Prod.mk.inj (Except.pure_eq_ok.mp h)
  refine ⟨location, haddress, ?_⟩
  split
  · next config bytes hbytes _ => exact .inr ⟨config, bytes, rfl, hbytes, rfl⟩
  · next hnone =>
    refine .inl ⟨Function.update_self _ _ _, ?_⟩
    rintro config rfl
    cases hw : w location with
    | none => rfl
    | some bytes => exact absurd hw (hnone config bytes rfl)

theorem exists_store (h : provider.address input = .ok (location, uri)) (w : World) :
    ∃ stored w', provider.store input w = .ok (stored, w') ∧ stored.uri = uri := by
  unfold StorageProvider.store
  rw [h]
  exact ⟨_, _, rfl, rfl⟩

theorem read_of_locationOf (h : provider.locationOf uri = .ok location) {bytes : Bytes}
    (hw : w location = some bytes) : provider.read uri w = .ok bytes := by
  unfold StorageProvider.read
  rw [h]
  simp only [bind, Except.bind, hw]
  rfl

theorem isThere_of_locationOf (h : provider.locationOf uri = .ok location) :
    provider.isThere uri w = .ok (w location).isSome := by
  unfold StorageProvider.isThere
  split
  · next heq =>
    rw [h] at heq
    rw [Except.ok.inj heq]
  · next heq =>
    rw [h] at heq
    cases heq
  · next heq =>
    rw [h] at heq
    cases heq

theorem remove_of_locationOf (h : provider.locationOf uri = .ok location) :
    provider.remove uri w = .ok (w.set location none) := by
  unfold StorageProvider.remove
  rw [h]
  rfl

theorem locationOf_of_remove (h : provider.remove uri w = .ok w') :
    ∃ location, provider.locationOf uri = .ok location ∧ w' = w.set location none := by
  cases hlocation : provider.locationOf uri with
  | ok location =>
    rw [remove_of_locationOf hlocation] at h
    exact ⟨location, rfl, (Except.ok.inj h).symm⟩
  | error e =>
    unfold StorageProvider.remove StorageProvider.rethrow at h
    rw [hlocation] at h
    cases provider <;> cases h

/-- The endpoint is no part of a URI: providers of the same bucket claim each other's objects. -/
theorem supportsUri_sameBucket {config config' : S3StorageConfig}
    (hbucket : config.bucket = config'.bucket) (hconfigured : config.keyPrefix = config'.keyPrefix)
    (input : StoreInput) : (StorageProvider.s3 config).supportsUri
      (config'.uriPrefix ++ config'.keyFor input) = true := by
  have hsupports : (StorageProvider.s3 config').supportsUri
      (config'.uriPrefix ++ config'.keyFor input) = true :=
    StorageProvider.supportsUri_of_locationOf
      ((StorageProvider.locationOf_address rfl).mpr trivial)
  have hsame : config.supportsUri = config'.supportsUri := by
    funext uri
    unfold S3StorageConfig.supportsUri S3StorageConfig.uriPrefix S3StorageConfig.configuredPrefix
    rw [hbucket, hconfigured]
  show config.supportsUri (config'.uriPrefix ++ config'.keyFor input) = true
  rw [hsame]
  exact hsupports

theorem owned_of_roundTrip (h : RoundTrip router input w) : Owned router input w := by
  intro name provider location uri hprovider haddress
  obtain ⟨stored, w', hstore, rfl⟩ := exists_store haddress w
  have hrouter : router.store input w = .ok (stored, w') := by
    unfold StorageRouter.store
    rw [hprovider]
    exact hstore
  obtain ⟨name', provider', location', hprovider', haddress', huri, hread, -, w'', hremove, hgone⟩ :=
    h stored w' hrouter
  obtain ⟨rfl, rfl⟩ := Prod.mk.inj (Except.ok.inj (hprovider.symm.trans hprovider'))
  obtain ⟨rfl, -⟩ := Prod.mk.inj (Except.ok.inj (haddress.symm.trans haddress'))
  obtain ⟨location', hlocation', hw'⟩ := store_eq_ok hstore
  obtain ⟨rfl, -⟩ := Prod.mk.inj (Except.ok.inj (haddress.symm.trans hlocation'))
  -- the removal reaches what was stored
  have howned : provider.locationOf stored.uri = .ok location := by
    unfold StorageRouter.remove at hremove
    rw [huri] at hremove
    obtain ⟨reached, hreached, rfl⟩ := locationOf_of_remove hremove
    by_cases hsame : reached = location
    · exact hsame ▸ hreached
    · unfold World.set at hgone
      rw [Function.update_of_ne (Ne.symm hsame)] at hgone
      rcases hw' with ⟨hw', -⟩ | ⟨_, _, -, hw, rfl⟩
      · rw [hgone] at hw'
        cases hw'
      · rw [hgone] at hw
        cases hw
  refine ⟨(StorageProvider.locationOf_address haddress).mp howned,
    (providerForUri_eq_ok hprovider (StorageProvider.supportsUri_of_locationOf howned)).mp huri, ?_⟩
  rintro config rfl bytes hbytes
  rcases hw' with ⟨-, hnone⟩ | ⟨_, _, -, -, rfl⟩
  · rw [hnone config rfl] at hbytes
    cases hbytes
  · unfold StorageRouter.read at hread
    rw [huri] at hread
    exact Except.ok.inj ((read_of_locationOf howned hbytes).symm.trans hread)

theorem roundTrip_of_owned (h : Owned router input w) : RoundTrip router input w := by
  intro stored w' hrouter
  unfold StorageRouter.store at hrouter
  obtain ⟨⟨name, provider⟩, hprovider, hstore⟩ := Except.bind_eq_ok.mp hrouter
  obtain ⟨location, haddress, hw'⟩ := store_eq_ok hstore
  obtain ⟨hown, hearlier, hbytes⟩ := h name provider location stored.uri hprovider haddress
  have howned := (StorageProvider.locationOf_address haddress).mpr hown
  have huri := (providerForUri_eq_ok hprovider
    (StorageProvider.supportsUri_of_locationOf howned)).mpr hearlier
  have hdata : w' location = some input.data := by
    rcases hw' with ⟨hw', -⟩ | ⟨config, bytes, rfl, hw, rfl⟩
    · exact hw'
    · rw [hw, hbytes config rfl bytes hw]
  refine ⟨name, provider, location, hprovider, haddress, huri, ?_, ?_, w'.set location none, ?_,
    Function.update_self _ _ _⟩
  · unfold StorageRouter.read
    rw [huri]
    exact read_of_locationOf howned hdata
  · unfold StorageRouter.isThere
    rw [huri]
    exact (isThere_of_locationOf howned).trans (by rw [hdata]; rfl)
  · unfold StorageRouter.remove
    rw [huri]
    exact remove_of_locationOf howned


/-- What is stored through the router is read back exactly when it is owned. -/
theorem router_roundTrip (router : StorageRouter) (input : StoreInput) (w : World) :
    RoundTrip router input w ↔ Owned router input w :=
  ⟨owned_of_roundTrip, roundTrip_of_owned⟩

end

/-! ## One bucket name at two endpoints -/

def bucketAt (endpoint : String) : S3StorageConfig where
  endpoint := some endpoint
  region := "local"
  bucket := "twins"

def twoBuckets : StorageConfig where
  defaultProvider := "a"
  providers := [("a", .s3 (bucketAt "http://a:9000")), ("b", .s3 (bucketAt "http://b:9000"))]
  routes := [("dataset", "b")]

def twoBucketsRouter : StorageRouter where
  config := twoBuckets
  providers := [("a", .s3 (bucketAt "http://a:9000")), ("b", .s3 (bucketAt "http://b:9000"))]

def helloDataset : StoreInput where
  data := hello
  category := some "dataset"

/-- The configuration is accepted, and a dataset is stored at one endpoint and looked for at the
other. -/
theorem twoBuckets_misrouted :
    validateStorage twoBuckets = .ok () ∧ createRouter twoBuckets = .ok twoBucketsRouter ∧
    ¬ @RoundTrip Platform.plain twoBucketsRouter helloDataset (fun _ => none) := by
  refine ⟨rfl, rfl, fun h => ?_⟩
  obtain ⟨-, hearlier, -⟩ := @owned_of_roundTrip Platform.plain _ _ _ h "b"
    (.s3 (bucketAt "http://b:9000")) _ _ rfl rfl
  have hfirst : ("a", StorageProvider.s3 (bucketAt "http://a:9000")) ∈
      twoBucketsRouter.providers.entries.takeWhile (·.1 ≠ "b") := List.mem_cons_self
  exact hearlier _ hfirst (@supportsUri_sameBucket Platform.plain (bucketAt "http://a:9000")
    (bucketAt "http://b:9000") rfl rfl helloDataset)

end Storage
