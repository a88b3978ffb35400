-- SUMMARY: Which lists of tenants give every entry its own account: nothing is shadowed, and no entry stops the search for a key.
import Mathlib.Data.List.Pairwise
import TwinServer.Base.Records
import TwinServer.Base.Search
import TwinServer.Security.Authentication

/-!
# Shadowed tenants

The entries of the registry and of the dynamic file are put into one map by tenant id before duplicates are looked for,
so an entry whose id comes again is gone without an error. Without the registry the dynamic entries are not read at
all. And a key is compared with the keys of the entries before its own, where an external key of another length throws.
-/

open Js

namespace Security

section
variable [Runtime] {sha256 : String → String} {credentials : String → Option String}

/-! ## The search for a key -/

/-- The key is one of the tenant. -/
def TenantDefinition.Opens (sha256 : String → String) (credentials : String → Option String) (t : TenantDefinition)
    (key : String) : Prop :=
  t.hasApiKey sha256 credentials (digest sha256 key) ∨ t.hasExternalKey (digest sha256 key)

/-- An entry that is listed, with its API key. -/
abbrev Listed := TenantDefinition × String

/-- Every entry has its API key, and no key is one of another entry. -/
structure Keys (sha256 : String → String) (credentials : String → Option String) (listed : List Listed) : Prop where
  own : ∀ e ∈ listed, e.2 ≠ "" ∧ e.1.read.hasApiKey sha256 credentials (digest sha256 e.2)
  distinct : listed.Pairwise fun a b =>
    ¬ b.1.read.Opens sha256 credentials a.2 ∧ ¬ a.1.read.Opens sha256 credentials b.2

/-- The errors of a configuration. -/
def configurationCodes : List String :=
  ["CONFIG_TENANT_REGISTRY_INVALID", "CONFIG_TENANT_INVALID", "CONFIG_TENANT_DUPLICATE"]

/-- Every entry is accepted with its key, as what it is, unless the configuration is refused. -/
structure Faithful (sha256 : String → String) (credentials : String → Option String) (static : StaticRegistry)
    (dynamic : List TenantDefinition) (listed : List Listed) : Prop where
  accounts : ∀ tenants, tenantDefinitions static dynamic = .ok tenants → ∀ e ∈ listed,
    authenticateApiKey sha256 credentials static dynamic (some e.2) = .ok (some e.1.read.toAccountingContext)
  failure : ∀ error, tenantDefinitions static dynamic = .error error → error.code ∈ configurationCodes

variable {static : StaticRegistry} {dynamic tenants : List TenantDefinition} {listed : List Listed}

/-- No key is one of two entries. -/
theorem Keys.eq_of_opens (hkeys : Keys sha256 credentials listed) {e e' : Listed} (he : e ∈ listed) (he' : e' ∈ listed)
    (h : e'.1.read.Opens sha256 credentials e.2) : e = e' := by
  by_contra hne
  have : Std.Symm fun a b : Listed => ¬ b.1.read.Opens sha256 credentials a.2 ∧ ¬ a.1.read.Opens sha256 credentials b.2 :=
    ⟨fun _ _ h => ⟨h.2, h.1⟩⟩
  exact (hkeys.distinct.forall he he' hne).1 h

end

/-! ## Two entries -/

end Security
