-- SUMMARY: The mapping of paths to URIs and back: nothing leads out of the root, and what is written is read.
import TwinServer.Storage.FileUrl

/-!
# The URIs of a filesystem provider

`uriFor`, `pathFor` and `assertWithinRoot` of `src/storage/filesystem.ts`, over the file URLs of Node.
-/

open Js Mqtt

namespace Storage.FilesystemStorageConfig

section
variable [Platform]

/-- What a URI is taken for is the root or below it, and no segment of it moves elsewhere. -/
def Contained (config : FilesystemStorageConfig) : Prop :=
  ∀ uri path, config.pathFor uri = .ok path → config.root <+: path ∧ IsPath path

/-- Every path below the root is what its own URI is taken for. -/
def Invertible (config : FilesystemStorageConfig) : Prop :=
  ∀ path, IsPath path → config.root <+: path → config.pathFor (config.uriFor path) = .ok path

/-- The prefix is missing, the scheme alone, or that of no file URL. -/
def Prefixed (config : FilesystemStorageConfig) : Prop :=
  ∀ u, config.uriPrefix = some u → u = "file://" ∨ ¬ startsWith u "file:"

variable {config : FilesystemStorageConfig}

omit [Platform] in
theorem isPath_foldl_resolve (names : List String) {p : Path} (hp : IsPath p) :
    IsPath (names.foldl resolve p) := by
  induction names generalizing p with
  | nil => exact hp
  | cons name names ih => exact ih (isPath_resolve hp name)

theorem within_of_assertWithinRoot {path : Path} (h : config.assertWithinRoot path = .ok ()) :
    config.root <+: path := by
  rw [assertWithinRoot, throwIf_eq_ok, Bool.not_eq_false', List.isPrefixOf_iff_prefix] at h
  exact h

/-- What a URI is taken for passed the last check, and is the path of a file URL or the decoded names. -/
theorem pathFor_eq_ok {uri : String} {path : Path} (h : config.pathFor uri = .ok path) :
    config.root <+: path ∧ (fileURLToPath uri = some path ∨ ∃ rest, config.decodePath rest = some path) := by
  unfold pathFor at h
  dsimp only at h
  split at h
  · obtain ⟨taken, htaken, h⟩ := Except.bind_eq_ok.mp h
    obtain ⟨hwithin, h⟩ := Except.check_bind_eq_ok.mp h
    obtain rfl := Except.pure_eq_ok.mp h
    exact ⟨within_of_assertWithinRoot hwithin, .inl (conversion_eq_ok.mp htaken)⟩
  · split at h
    · cases h
    · obtain ⟨-, h⟩ := Except.check_bind_eq_ok.mp h
      obtain ⟨taken, htaken, h⟩ := Except.bind_eq_ok.mp h
      obtain ⟨hwithin, h⟩ := Except.check_bind_eq_ok.mp h
      obtain rfl := Except.pure_eq_ok.mp h
      exact ⟨within_of_assertWithinRoot hwithin, .inr ⟨_, conversion_eq_ok.mp htaken⟩⟩

/-- The last check decides, and every name is resolved on its own, whatever slashes and dots it was decoded to. -/
theorem contained (hfile : ∀ uri path, fileURLToPath uri = some path → IsPath path)
    (config : FilesystemStorageConfig) : config.Contained := by
  intro uri path h
  obtain ⟨hroot, hpath⟩ := pathFor_eq_ok h
  refine ⟨hroot, ?_⟩
  rcases hpath with hpath | ⟨rest, hrest⟩
  · exact hfile uri path hpath
  · obtain ⟨names, -, rfl⟩ := Option.map_eq_some_iff.mp hrest
    exact isPath_foldl_resolve names (isPath_root config)

omit [Platform] in
theorem not_startsWith_stripSlash {u p : String} (h : ¬ startsWith u p) : ¬ startsWith (stripSlash u) p := by
  unfold stripSlash
  split
  · intro hstart
    rw [startsWith, String.toList_ofList, List.isPrefixOf_iff_prefix] at hstart
    refine h (List.isPrefixOf_iff_prefix.mpr ?_)
    exact hstart.trans (List.dropLast_prefix _)
  · exact h

omit [Platform] in
theorem stripSlash_eq_empty {u : String} (hne : u ≠ "") : stripSlash u = "" ↔ u = "/" := by
  constructor
  · intro h
    unfold stripSlash at h
    split at h
    · next hlast =>
      have hdrop : u.toList.dropLast = [] := by
        have hlist := congrArg String.toList h
        rwa [String.toList_ofList] at hlist
      apply String.toList_inj.mp
      have hsplit := List.dropLast_append_getLast? _ hlast
      rw [hdrop] at hsplit
      exact hsplit.symm
    · exact absurd h hne
  · rintro rfl
    decide

/-- What is written under a prefix is read unless the prefix is a slash only. -/
theorem invertible_iff (h : config.Prefixed) : config.Invertible ↔ config.uriPrefix ≠ some "/" := by
  have hurl {path : Path} (hpath : IsPath path) (hroot : config.root <+: path) :
      config.pathFor (pathToFileURL path) = .ok path :=
    (pathFor_file (Platform.pathToFileURL_file path) hroot).mpr (Platform.fileURLToPath_pathToFileURL path hpath)
  cases hconfigured : config.uriPrefix with
  | none =>
    refine ⟨fun _ => Option.some_ne_none _ |>.symm, fun _ path hpath hroot => ?_⟩
    rw [uriFor, hconfigured]
    exact hurl hpath hroot
  | some u =>
    by_cases hfile : u = "" ∨ u = "file://"
    · have hslash : some u ≠ some "/" := by
        rcases hfile with rfl | rfl <;> simp
      refine ⟨fun _ => hslash, fun _ path hpath hroot => ?_⟩
      rw [uriFor, hconfigured]
      dsimp only
      rw [if_pos hfile]
      exact hurl hpath hroot
    · obtain ⟨hne, hscheme⟩ := not_or.mp hfile
      have hscheme : ¬ startsWith (stripSlash u) "file:" :=
        not_startsWith_stripSlash ((h u hconfigured).resolve_left hscheme)
      have hstripped : config.uriPrefix.map stripSlash = some (stripSlash u) := by
        rw [hconfigured]
        rfl
      -- below the root the names after the prefix are those after the root
      have hread (names : Path) (hnames : IsPath names) :
          config.pathFor (config.uriFor (config.root ++ names)) = .ok (config.root ++ names) ↔ u ≠ "/" := by
        rw [uriFor, hconfigured]
        dsimp only
        rw [if_neg hfile, List.drop_left, pathFor_prefix hstripped hscheme hnames, ne_eq, stripSlash_eq_empty hne]
      rw [ne_eq, Option.some.injEq]
      constructor
      · intro hinvertible
        refine (hread [] fun _ hs => absurd hs List.not_mem_nil).mp ?_
        rw [List.append_nil]
        exact hinvertible config.root (isPath_root config) (List.prefix_refl _)
      · rintro hslash path hpath ⟨names, rfl⟩
        exact (hread names fun s hs => hpath s (List.mem_append_right _ hs)).mpr hslash

end

/-- Over the file URLs of Node, the mapping is contained, and it is invertible for every prefix but a slash. -/
theorem contained_and_invertible [Node] (config : FilesystemStorageConfig) :
    config.Contained ∧ (config.Prefixed → config.Invertible) ↔ config.uriPrefix ≠ some "/" := by
  have hcontained : config.Contained := contained (fun _ _ h => isPath_nodeFileURLToPath h) config
  constructor
  · rintro ⟨-, hinvertible⟩ hslash
    have hconfigureded : config.Prefixed := by
      intro u hu
      obtain rfl := Option.some.inj (hslash.symm.trans hu)
      exact .inr (by decide)
    exact (invertible_iff hconfigureded).mp (hinvertible hconfigureded) hslash
  · exact fun hslash => ⟨hcontained, fun hconfigureded => (invertible_iff hconfigureded).mpr hslash⟩

/-! ## A prefix that is only a slash -/

/-- Node at the root directory, with the digest of one text. -/
@[reducible] def nodeAtRoot : Node where
  toRuntime := Runtime.ascii
  cwd := []
  sha256 := Platform.plain.sha256
  isLocalhost host := host == "localhost".toList
  isPath_cwd := Platform.plain.isPath_cwd
  sha256_length := Platform.plain.sha256_length
  sha256_hex := Platform.plain.sha256_hex

def slashPrefixed : FilesystemStorageConfig where
  basePath := "/data"
  uriPrefix := some "/"

/-- The file `/data/report.txt` gets the URI `/report.txt`, which no provider takes. -/
theorem slash_prefix_unread :
    letI := nodeAtRoot
    ¬ (slashPrefixed.Contained ∧ (slashPrefixed.Prefixed → slashPrefixed.Invertible)) := by
  let _ := nodeAtRoot
  rintro ⟨-, hinvertible⟩
  have hconfigureded : slashPrefixed.Prefixed := by
    intro u hu
    obtain rfl := Option.some.inj hu
    exact .inr (by decide)
  have hroot : slashPrefixed.root = ["data"] := by decide
  have huri : slashPrefixed.uriFor ["data", "report.txt"] = "/report.txt" := by decide
  have hpath : IsPath ["data", "report.txt"] := by
    intro s hs
    simp only [List.mem_cons, List.not_mem_nil, or_false] at hs
    rcases hs with rfl | rfl <;> simp
  have hread := hinvertible hconfigureded ["data", "report.txt"] hpath (hroot ▸ List.prefix_append _ _)
  have hthrows : (slashPrefixed.pathFor "/report.txt").isOk = false := by decide
  rw [huri] at hread
  rw [hread] at hthrows
  cases hthrows

end Storage.FilesystemStorageConfig
