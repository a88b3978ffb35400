-- SUMMARY: File URLs as Node writes and reads them on POSIX systems: the platform of the filesystem provider.
import TwinServer.Storage.Providers

/-!
# File URLs

`pathToFileURL` and `fileURLToPath` of Node's `url` module on POSIX systems, with the URL parser for URLs of
the scheme `file`. A path is written with all characters escaped that the parser would take for syntax or
would change, and is read as the decoded path of the URL.
-/

open Js Mqtt

namespace Storage

/-! ## File URLs -/

/-- The characters of a path that Node leaves as they are in a file URL. -/
def isFileUrlChar (c : Char) : Bool := c.isAlphanum || "!$&'()*+,-./:;=@_".toList.contains c

def pathText (p : Path) : List Char := ("/" ++ joinSlash p).toList

/-- `pathToFileURL(path).toString()`. -/
def nodePathToFileURL (p : Path) : String := .ofList ("file://".toList ++ encodeWith isFileUrlChar (pathText p))

def isC0OrSpace (c : Char) : Bool := c.toNat ≤ 0x20

def isTabOrNewline (c : Char) : Bool := c == '\t' || c == '\n' || c == '\r'

/-- The text after `file:` as the parser takes it: without the white space that it drops, up to the query or the
fragment, and with slashes for backslashes. -/
def urlRest (uri : String) : List Char :=
  let trimmed := (uri.toList.dropWhile isC0OrSpace).rdropWhile isC0OrSpace
  let rest := (trimmed.filter (!isTabOrNewline ·)).drop "file:".length
  (rest.takeWhile fun c => c != '?' && c != '#').map fun c => if c = '\\' then '/' else c

def isDriveLetter : List Char → Bool
  | [a, b] => a.isAlpha && (b == ':' || b == '|')
  | _ => false

def singleDots : List (List Char) := [".", "%2e", "%2E"].map String.toList

def doubleDots : List (List Char) :=
  ["..", ".%2e", ".%2E", "%2e.", "%2E.", "%2e%2e", "%2e%2E", "%2E%2e", "%2E%2E"].map String.toList

/-- A path without its last segment; a drive letter that stands alone stays. -/
def shorten : List (List Char) → List (List Char)
  | [segment] => if isDriveLetter segment then [segment] else []
  | path => path.dropLast

/-- The state of the parser for paths, segment by segment. -/
def urlPath : List (List Char) → List (List Char) → List (List Char)
  | path, [] => path
  | path, segment :: segments =>
    if doubleDots.contains segment then
      urlPath (if segments.isEmpty then shorten path ++ [[]] else shorten path) segments
    else if singleDots.contains segment then
      urlPath (if segments.isEmpty then path ++ [[]] else path) segments
    else if path.isEmpty && isDriveLetter segment then urlPath [segment.take 1 ++ [':']] segments
    else urlPath (path ++ [segment]) segments

/-- The characters of a pathname have an escaped slash. -/
@[local grind] def hasEncodedSlash : List Char → Bool
  | '%' :: '2' :: c :: cs => c == 'F' || c == 'f' || hasEncodedSlash ('2' :: c :: cs)
  | _ :: cs => hasEncodedSlash cs
  | [] => false

/-! ## What is written is read -/

/-- A character of a URL that Node writes. -/
def isWritten (c : Char) : Bool := isFileUrlChar c || c == '%'

theorem isWritten_cases {c : Char} (h : isWritten c) :
    0x20 < c.toNat ∧ isTabOrNewline c = false ∧ c ≠ '?' ∧ c ≠ '#' ∧ c ≠ '\\' ∧ c ≠ '|' := by
  have hcontrol : ∀ n ≤ 0x20, isWritten (Char.ofNat n) = false := by decide
  have hhigh : 0x20 < c.toNat := by
    by_contra hle
    have hfalse := hcontrol c.toNat (Nat.not_lt.mp hle)
    rw [Char.ofNat_toNat, h] at hfalse
    cases hfalse
  refine ⟨hhigh, ?_, ?_, ?_, ?_, ?_⟩
  · cases htab : isTabOrNewline c with
    | false => rfl
    | true =>
        simp only [isTabOrNewline, Bool.or_eq_true, beq_iff_eq] at htab
        rcases htab with (rfl | rfl) | rfl <;> exact absurd hhigh (by decide)
  all_goals
    rintro rfl
    exact absurd h (by decide)

theorem isWritten_percent {b : UInt8} {c : Char} (h : c ∈ percent b) : isWritten c := by
  have hdigit : ∀ n < 16, isWritten (upperHexDigit n) = true := by decide
  simp only [percent, List.mem_cons, List.not_mem_nil, or_false] at h
  rcases h with rfl | rfl | rfl
  · decide
  · exact hdigit _ (by have := b.toNat_lt; omega)
  · exact hdigit _ (Nat.mod_lt _ (by decide))

theorem isWritten_of_mem {cs : List Char} {c : Char} (h : c ∈ encodeWith isFileUrlChar cs) : isWritten c := by
  obtain ⟨d, -, hc⟩ := List.mem_flatMap.mp h
  cases hd : isFileUrlChar d with
  | true =>
      rw [hd, if_pos rfl] at hc
      obtain rfl := List.mem_singleton.mp hc
      rw [isWritten, hd, Bool.true_or]
  | false =>
      rw [hd, if_neg Bool.false_ne_true] at hc
      obtain ⟨b, -, hb⟩ := List.mem_flatMap.mp hc
      exact isWritten_percent hb

/-- The parser takes the text of such a URL as it is. -/
theorem urlRest_of_written {cs : List Char} (h : ∀ c ∈ cs, isWritten c) :
    urlRest (.ofList ("file:".toList ++ cs)) = cs := by
  have hall : ∀ c ∈ "file:".toList ++ cs, isWritten c := by
    intro c hc
    rcases List.mem_append.mp hc with hc | hc
    · have hscheme : "file:".toList.all isWritten = true := by decide
      exact List.all_eq_true.mp hscheme c hc
    · exact h c hc
  have hspace : ∀ c ∈ "file:".toList ++ cs, isC0OrSpace c = false := by
    intro c hc
    simpa [isC0OrSpace] using (isWritten_cases (hall c hc)).1
  have hdrop : ∀ l : List Char, (∀ c ∈ l, isC0OrSpace c = false) → l.dropWhile isC0OrSpace = l := by
    intro l hl
    cases l with
    | nil => rfl
    | cons c l => rw [List.dropWhile_cons, hl c List.mem_cons_self, if_neg Bool.false_ne_true]
  have htrim : (("file:".toList ++ cs).dropWhile isC0OrSpace).rdropWhile isC0OrSpace = "file:".toList ++ cs := by
    rw [hdrop _ hspace, List.rdropWhile, hdrop _ fun c hc => hspace c (List.mem_reverse.mp hc), List.reverse_reverse]
  have hfilter : ("file:".toList ++ cs).filter (!isTabOrNewline ·) = "file:".toList ++ cs := by
    apply List.filter_eq_self.mpr
    intro c hc
    rw [(isWritten_cases (hall c hc)).2.1]
    rfl
  have htake : cs.takeWhile (fun c => c != '?' && c != '#') = cs := by
    apply List.takeWhile_eq_self_iff.mpr
    intro c hc
    obtain ⟨-, -, hquery, hfragment, -⟩ := isWritten_cases (h c hc)
    simp [hquery, hfragment]
  have hmap : cs.map (fun c => if c = '\\' then '/' else c) = cs := by
    refine (List.map_congr_left fun c hc => ?_).trans (List.map_id _)
    rw [if_neg (isWritten_cases (h c hc)).2.2.2.2.1]
    rfl
  rw [urlRest, String.toList_ofList, htrim, hfilter]
  change (((cs.takeWhile _)).map _) = cs
  rw [htake, hmap]

theorem hasEncodedSlash_cons {c : Char} (hc : c ≠ '%') (cs : List Char) :
    hasEncodedSlash (c :: cs) = hasEncodedSlash cs := by
  rw [hasEncodedSlash]
  exact fun _ _ heq => absurd heq hc

/-- Only the slash has the byte of the slash. -/
theorem eq_slash_of_mem {c : Char} (h : 0x2F ∈ String.utf8EncodeChar c) : c = '/' := by
  have hhigh {n : Nat} (hn : 0x80 ≤ n) (hn' : n < 0x100) : (0x2F : UInt8) ≠ UInt8.ofNat n := by
    intro heq
    have heq := congrArg UInt8.toNat heq
    rw [UInt8.toNat_ofNat_of_lt' hn', show UInt8.toNat 0x2F = 0x2F from rfl] at heq
    omega
  unfold String.utf8EncodeChar at h
  dsimp only at h
  split at h
  -- one byte, the character itself
  · next hle =>
    have heq := congrArg UInt8.toNat (List.mem_singleton.mp h)
    rw [UInt8.toNat_ofNat_of_lt' (show c.val.toNat < 0x100 by omega)] at heq
    exact Char.ext (UInt32.toNat_inj.mp heq.symm)
  -- more bytes, of which none is below 0x80
  · exfalso
    split at h
    · simp only [List.mem_cons, List.not_mem_nil, or_false] at h
      rcases h with h | h <;> exact hhigh (by omega) (by omega) h
    · split at h
      · simp only [List.mem_cons, List.not_mem_nil, or_false] at h
        rcases h with h | h | h <;> exact hhigh (by omega) (by omega) h
      · simp only [List.mem_cons, List.not_mem_nil, or_false] at h
        rcases h with h | h | h | h <;> exact hhigh (by omega) (by omega) h

theorem hasEncodedSlash_percent {b : UInt8} (hb : b ≠ 0x2F) (cs : List Char) :
    hasEncodedSlash (percent b ++ cs) = hasEncodedSlash cs := by
  have hdigit : ∀ n < 16, upperHexDigit n ≠ '%' ∧ upperHexDigit n ≠ 'f' ∧
      (upperHexDigit n = '2' → n = 2) ∧ (upperHexDigit n = 'F' → n = 15) := by decide
  obtain ⟨hhigh, -, htwo, -⟩ := hdigit (b.toNat / 16) (by have := b.toNat_lt; omega)
  obtain ⟨hlow, hf, -, hF⟩ := hdigit (b.toNat % 16) (Nat.mod_lt _ (by decide))
  have hrest : hasEncodedSlash (upperHexDigit (b.toNat / 16) :: upperHexDigit (b.toNat % 16) :: cs) =
      hasEncodedSlash cs := by
    rw [hasEncodedSlash_cons hhigh, hasEncodedSlash_cons hlow]
  rw [percent, List.cons_append, List.cons_append, List.cons_append, List.nil_append]
  by_cases hslash : upperHexDigit (b.toNat / 16) = '2'
  · have hslash' : upperHexDigit (b.toNat % 16) ≠ 'F' := by
      intro heq
      have hvalue : b.toNat = 0x2F := by
        have hquot := htwo hslash
        have hrem := hF heq
        omega
      exact hb (UInt8.toNat_inj.mp hvalue)
    rw [hslash] at hrest ⊢
    rw [hasEncodedSlash, beq_false_of_ne hslash', beq_false_of_ne hf, Bool.false_or, Bool.false_or, hrest]
  · rw [hasEncodedSlash, hrest]
    exact fun _ _ _ heq => absurd (List.cons.inj heq).1 hslash

/-- A slash that is kept is not escaped. -/
theorem hasEncodedSlash_encodeWith {keep : Char → Bool} (hslash : keep '/' = true) (hpercent : keep '%' = false)
    (cs : List Char) : hasEncodedSlash (encodeWith keep cs) = false := by
  induction cs with
  | nil => rfl
  | cons c cs ih =>
      rw [encodeWith, List.flatMap_cons]
      cases hc : keep c with
      | true =>
          rw [if_pos rfl, List.singleton_append, hasEncodedSlash_cons]
          · exact ih
          · rintro rfl
            rw [hpercent] at hc
            cases hc
      | false =>
          rw [if_neg Bool.false_ne_true]
          have hbytes : ∀ bytes : Bytes, (∀ b ∈ bytes, b ≠ 0x2F) → ∀ rest,
              hasEncodedSlash (bytes.flatMap percent ++ rest) = hasEncodedSlash rest := by
            intro bytes hbytes rest
            induction bytes with
            | nil => rfl
            | cons b bytes ih =>
                obtain ⟨hb, hrest⟩ := List.forall_mem_cons.mp hbytes
                rw [List.flatMap_cons, List.append_assoc, hasEncodedSlash_percent hb, ih hrest]
          rw [hbytes _ fun b hb heq => ?_]
          · exact ih
          · have hslash' := eq_slash_of_mem (heq ▸ hb)
            rw [hslash', hslash] at hc
            cases hc

theorem splitChars_append_of_not_mem {sep : Char} {front : List Char} (h : sep ∉ front) (cs : List Char) :
    splitChars sep (front ++ cs) = (splitChars sep cs).modifyHead (front ++ ·) := by
  induction front with
  | nil =>
      rw [List.nil_append]
      exact (congrFun List.modifyHead_id _).symm
  | cons c front ih =>
      have hc : c ≠ sep := fun heq => h (heq ▸ List.mem_cons_self)
      rw [List.cons_append, splitChars, if_neg hc, ih (List.not_mem_of_not_mem_cons h)]
      cases hsplit : splitChars sep cs with
      | nil => exact absurd hsplit (splitChars_ne_nil sep cs)
      | cons level levels => rfl

/-- The segments of what was written are the segments, written. -/
theorem splitChars_encodeWith {keep : Char → Bool} (hslash : keep '/' = true) (cs : List Char) :
    splitChars '/' (encodeWith keep cs) = (splitChars '/' cs).map (encodeWith keep) := by
  induction cs with
  | nil => rfl
  | cons c cs ih =>
      rw [encodeWith, List.flatMap_cons]
      by_cases hc : c = '/'
      · subst hc
        rw [hslash, if_pos rfl, List.singleton_append, splitChars, if_pos rfl, splitChars, if_pos rfl,
          List.map_cons, ← ih]
        rfl
      · rw [splitChars_append_of_not_mem (not_mem_encode hc), splitChars, if_neg hc]
        change (splitChars '/' (encodeWith keep cs)).modifyHead _ = _
        rw [ih]
        cases hsplit : splitChars '/' cs with
        | nil => exact absurd hsplit (splitChars_ne_nil '/' cs)
        | cons level levels => rfl

theorem intercalate_splitChars (sep : Char) (cs : List Char) : [sep].intercalate (splitChars sep cs) = cs := by
  induction cs with
  | nil => rfl
  | cons c cs ih =>
      rw [splitChars]
      split
      · rename_i hc
        subst hc
        cases hsplit : splitChars c cs with
        | nil => exact absurd hsplit (splitChars_ne_nil c cs)
        | cons level levels =>
            rw [hsplit] at ih
            rw [List.intercalate_cons_cons, ih]
            rfl
      · cases hsplit : splitChars sep cs with
        | nil => exact absurd hsplit (splitChars_ne_nil sep cs)
        | cons level levels =>
            rw [hsplit] at ih
            cases levels with
            | nil => simpa using ih
            | cons level' levels =>
                rw [List.intercalate_cons_cons] at ih ⊢
                rw [← ih]
                rfl

theorem urlPath_of_plain {segments : List (List Char)} (path : List (List Char))
    (h : ∀ s ∈ segments, doubleDots.contains s = false ∧ singleDots.contains s = false ∧
      (isDriveLetter s = true → ∃ a, s = [a, ':'])) : urlPath path segments = path ++ segments := by
  induction segments generalizing path with
  | nil => simp [urlPath]
  | cons s segments ih =>
      obtain ⟨⟨hdouble, hsingle, hdrive⟩, hrest⟩ := List.forall_mem_cons.mp h
      rw [urlPath, hdouble, hsingle]
      simp only [Bool.false_eq_true, if_false]
      split
      · rename_i hletter
        rw [Bool.and_eq_true, List.isEmpty_iff] at hletter
        obtain ⟨rfl, hletter⟩ := hletter
        obtain ⟨a, rfl⟩ := hdrive hletter
        rw [ih _ hrest]
        rfl
      · rw [ih _ hrest, List.append_assoc, List.singleton_append]

/-- A segment that was written is no dot segment unless it is one without its escapes. -/
theorem not_dots_encodeWith (keep : Char → Bool) (hkeep : keep '%' = false) {segment : List Char}
    (hdot : segment ≠ ['.']) (hdots : segment ≠ ['.', '.']) :
    doubleDots.contains (encodeWith keep segment) = false ∧ singleDots.contains (encodeWith keep segment) = false := by
  have hdecode := decodeChars_encode hkeep segment
  have hdouble : ∀ dots ∈ doubleDots, decodeChars dots [] = some ['.', '.'] := by decide
  have hsingle : ∀ dots ∈ singleDots, decodeChars dots [] = some ['.'] := by decide
  constructor
  · rw [← Bool.not_eq_true, List.contains_iff_mem]
    exact fun h => hdots (Option.some.inj (hdecode.symm.trans (hdouble _ h)))
  · rw [← Bool.not_eq_true, List.contains_iff_mem]
    exact fun h => hdot (Option.some.inj (hdecode.symm.trans (hsingle _ h)))

theorem colon_of_isDriveLetter {segment : List Char} (hwritten : ∀ c ∈ segment, isWritten c)
    (h : isDriveLetter segment) : ∃ a, segment = [a, ':'] := by
  unfold isDriveLetter at h
  split at h
  · next a b =>
    rw [Bool.and_eq_true, Bool.or_eq_true, beq_iff_eq, beq_iff_eq] at h
    rcases h.2 with rfl | rfl
    · exact ⟨a, rfl⟩
    · exact absurd rfl (isWritten_cases (hwritten '|' (by simp))).2.2.2.2.2
  · cases h

/-- The segments of a path are what its URL is split into. -/
theorem urlPath_pathText {p : Path} (h : IsPath p) :
    urlPath [] (splitChars '/' (encodeWith isFileUrlChar (joinSlash p).toList)) =
      splitChars '/' (encodeWith isFileUrlChar (joinSlash p).toList) := by
  have hsegments : ∀ segment ∈ splitChars '/' (joinSlash p).toList, segment ≠ ['.'] ∧ segment ≠ ['.', '.'] := by
    intro segment hsegment
    cases p with
    | nil =>
      obtain rfl := List.mem_singleton.mp hsegment
      exact ⟨(List.cons_ne_nil _ _).symm, (List.cons_ne_nil _ _).symm⟩
    | cons s names =>
      rw [splitChars_joinSlash (List.cons_ne_nil _ _) fun t ht => (h t ht).2.2.2] at hsegment
      obtain ⟨name, hname, rfl⟩ := List.mem_map.mp hsegment
      obtain ⟨-, hdot, hdots, -⟩ := h name hname
      exact ⟨fun heq => hdot (String.toList_inj.mp heq), fun heq => hdots (String.toList_inj.mp heq)⟩
  rw [splitChars_encodeWith (by decide)]
  refine (urlPath_of_plain [] ?_).trans (List.nil_append _)
  intro segment hsegment
  obtain ⟨original, horiginal, rfl⟩ := List.mem_map.mp hsegment
  obtain ⟨hdot, hdots⟩ := hsegments original horiginal
  obtain ⟨hdouble, hsingle⟩ := not_dots_encodeWith isFileUrlChar (by decide) hdot hdots
  exact ⟨hdouble, hsingle, colon_of_isDriveLetter fun c hc => isWritten_of_mem hc⟩

/-- What the runtime supplies beside the file URLs: the working directory, SHA-256, and the hosts of URLs that
mean this machine. -/
class Node extends Js.Runtime where
  cwd : Path
  sha256 : Bytes → String
  isLocalhost : List Char → Bool
  isPath_cwd : IsPath cwd
  sha256_length : ∀ bytes, (sha256 bytes).toList.length = 64
  sha256_hex : ∀ bytes, ∀ c ∈ (sha256 bytes).toList, isLowerHex c

section
variable [Node]

/-- The segments of the path of a file URL; it has none when its host is another one. -/
def urlSegments (rest : List Char) : Option (List (List Char)) :=
  match rest with
  | '/' :: '/' :: after =>
    let host := after.takeWhile (· != '/')
    if isDriveLetter host then some (urlPath [] (splitChars '/' after))
    else if host.isEmpty || Node.isLocalhost host then
      some (urlPath [] (splitChars '/' ((after.dropWhile (· != '/')).drop 1)))
    else none
  | '/' :: path => some (urlPath [] (splitChars '/' path))
  | path => some (urlPath [] (splitChars '/' path))

/-- `fileURLToPath(uri)`, resolved; `none` is a thrown error. -/
def nodeFileURLToPath (uri : String) : Option Path := do
  let segments ← urlSegments (urlRest uri)
  let pathname := '/' :: ['/'].intercalate segments
  if hasEncodedSlash pathname then none
  else
    let path ← decodeURIComponent (.ofList pathname)
    return resolve [] path

/-- A path is read from its URL. -/
theorem nodeFileURLToPath_nodePathToFileURL {p : Path} (h : IsPath p) :
    nodeFileURLToPath (nodePathToFileURL p) = some p := by
  have htext : pathText p = '/' :: (joinSlash p).toList := by
    rw [pathText, String.toList_append]
    rfl
  have hencode : encodeWith isFileUrlChar (pathText p) =
      '/' :: encodeWith isFileUrlChar (joinSlash p).toList := by
    rw [htext]
    rfl
  have hrest : urlRest (nodePathToFileURL p) = '/' :: '/' :: encodeWith isFileUrlChar (pathText p) := by
    have hwritten : ∀ c ∈ '/' :: '/' :: encodeWith isFileUrlChar (pathText p), isWritten c := by
      intro c hc
      rcases List.mem_cons.mp hc with rfl | hc
      · decide
      · rcases List.mem_cons.mp hc with rfl | hc
        · decide
        · exact isWritten_of_mem hc
    exact urlRest_of_written hwritten
  have hsegments : urlSegments (urlRest (nodePathToFileURL p)) =
      some (splitChars '/' (encodeWith isFileUrlChar (joinSlash p).toList)) := by
    rw [hrest, hencode]
    exact congrArg some (urlPath_pathText h)
  have hpathname : '/' :: ['/'].intercalate (splitChars '/' (encodeWith isFileUrlChar (joinSlash p).toList)) =
      encodeWith isFileUrlChar (pathText p) := by
    rw [intercalate_splitChars, hencode]
  have hdecode : decodeURIComponent (.ofList (encodeWith isFileUrlChar (pathText p))) =
      some ("/" ++ joinSlash p) := by
    rw [decodeURIComponent, String.toList_ofList, decodeChars_encode (by decide), Option.map_some, pathText,
      String.ofList_toList]
  unfold nodeFileURLToPath
  rw [hsegments]
  simp only [Option.bind_eq_bind, Option.bind_some, hpathname]
  rw [hasEncodedSlash_encodeWith (by decide) (by decide), if_neg Bool.false_ne_true, hdecode, Option.bind_some,
    resolve_joinSlash h]
  rfl

theorem isPath_nodeFileURLToPath {uri : String} {p : Path} (h : nodeFileURLToPath uri = some p) : IsPath p := by
  obtain ⟨segments, -, h⟩ := Option.bind_eq_some_iff.mp h
  dsimp only at h
  split at h
  · cases h
  · obtain ⟨path, -, h⟩ := Option.bind_eq_some_iff.mp h
    obtain rfl := Option.some.inj h
    exact isPath_resolve (fun _ h => absurd h List.not_mem_nil) path

omit [Node] in
theorem startsWith_nodePathToFileURL (p : Path) : startsWith (nodePathToFileURL p) "file:" := by
  have hscheme : "file:".toList <+: "file://".toList := by simp
  have hurl : (nodePathToFileURL p).toList = "file://".toList ++ encodeWith isFileUrlChar (pathText p) :=
    String.toList_ofList
  refine List.isPrefixOf_iff_prefix.mpr ?_
  rw [hurl]
  exact hscheme.trans (List.prefix_append _ _)

/-- Node supplies the platform of the providers. -/
instance Node.platform : Platform where
  cwd := Node.cwd
  pathToFileURL := nodePathToFileURL
  fileURLToPath := nodeFileURLToPath
  sha256 := Node.sha256
  isPath_cwd := Node.isPath_cwd
  pathToFileURL_file := startsWith_nodePathToFileURL
  fileURLToPath_pathToFileURL _ := nodeFileURLToPath_nodePathToFileURL
  sha256_length := Node.sha256_length
  sha256_hex := Node.sha256_hex

end

end Storage
