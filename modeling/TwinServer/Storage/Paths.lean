-- SUMMARY: Names, paths and percent-encoding as the storage providers use them, over what the platform supplies.
import Mathlib.Data.List.DropRight
import TwinServer.Base.Errors
import TwinServer.Base.Topic

/-!
# Names and paths

The functions of `src/storage/bytes.ts`, and what the providers use of Node's `path` and `url`
modules and of the coding of URI components. A path is absolute and is the list of its segments.
-/

open Js Mqtt

namespace Storage

abbrev Bytes := List UInt8

abbrev Path := List String

/-! ## Segments -/

/-- The class `[a-zA-Z0-9._-]`. -/
def isSegmentChar (c : Char) : Bool := c.isAlphanum || c == '.' || c == '_' || c == '-'

/-- `s.replace(/[^a-zA-Z0-9._-]+/g, "-")`, given whether the character before was replaced. -/
def replaceRuns : Bool → List Char → List Char
  | _, [] => []
  | replaced, c :: cs =>
    if isSegmentChar c then c :: replaceRuns false cs
    else if replaced then replaceRuns true cs
    else '-' :: replaceRuns true cs

def isEdge (c : Char) : Bool := c == '-' || c == '.'

/-- `s.replace(/^[-.]+|[-.]+$/g, "")`. -/
def trimEdges (cs : List Char) : List Char := (cs.dropWhile isEdge).rdropWhile isEdge

def safeSegment (value : Option String) (fallback : String) : String :=
  let cleaned := trimEdges (replaceRuns false (value.getD "").toList)
  if cleaned.isEmpty then fallback else .ofList cleaned

/-- What reading a property of a table of strings finds: a string of the table, or what the
table inherits from `Object.prototype`. -/
inductive Property where
  | own (s : String)
  | inherited (property : String)

def knownCategories : Record String :=
  [("dataset", "datasets"), ("model", "models"), ("evidence", "evidence"),
    ("artifact", "artifacts"), ("event-payload", "event-payloads")]

def categoryDirectory (category : Option String) : Property :=
  let normalized := safeSegment (some (category.getD "artifact")) "artifact"
  match knownCategories.get? normalized with
  | some directory => .own directory
  | none => if normalized ∈ inheritedProperties then .inherited normalized else .own normalized

/-- The text of what an object inherits: its prototype, the constructor, or a native method. -/
def inheritedText (property : String) : String :=
  if property = "__proto__" then "[object Object]"
  else "function " ++ (if property = "constructor" then "Object" else property) ++
    "() \x7b [native code] \x7d"

def Property.text : Property → String
  | .own s => s
  | .inherited property => inheritedText property

/-! ## Paths -/

/-- `basename(s)`. -/
def basename (s : String) : String :=
  .ofList ((s.toList.rdropWhile (· == '/')).rtakeWhile (· != '/'))

/-- One segment of an argument of `resolve`. -/
def resolveSegment (p : Path) (segment : List Char) : Path :=
  if segment = [] ∨ segment = ['.'] then p
  else if segment = ['.', '.'] then p.dropLast
  else p ++ [.ofList segment]

/-- `resolve(p, arg)`. -/
def resolve (p : Path) (arg : String) : Path :=
  (splitChars '/' arg.toList).foldl resolveSegment (if startsWith arg "/" then [] else p)

/-- Segments that `resolve` takes over as they are. -/
def IsPath (p : Path) : Prop :=
  ∀ s ∈ p, s ≠ "" ∧ s ≠ "." ∧ s ≠ ".." ∧ '/' ∉ s.toList

/-- `p.join("/")`. -/
def joinSlash : List String → String
  | [] => ""
  | [s] => s
  | s :: ss => s ++ "/" ++ joinSlash ss

/-! ## URI components -/

/-- The characters that `encodeURIComponent` leaves alone. -/
def isUnreserved (c : Char) : Bool := c.isAlphanum || "-_.!~*'()".toList.contains c

def upperHexDigit (n : Nat) : Char := if n < 10 then .ofNat (48 + n) else .ofNat (55 + n)

/-- `%XX`. -/
def percent (b : UInt8) : List Char :=
  ['%', upperHexDigit (b.toNat / 16), upperHexDigit (b.toNat % 16)]

def encodeURIComponent (s : String) : String :=
  .ofList (s.toList.flatMap fun c =>
    if isUnreserved c then [c] else (String.utf8EncodeChar c).flatMap percent)

def hexValue? (c : Char) : Option Nat :=
  if '0' ≤ c ∧ c ≤ '9' then some (c.toNat - 48)
  else if 'a' ≤ c ∧ c ≤ 'f' then some (c.toNat - 87)
  else if 'A' ≤ c ∧ c ≤ 'F' then some (c.toNat - 55)
  else none

/-- The characters of the bytes of a run of escapes. -/
def decodeBytes (bytes : Bytes) : Option (List Char) :=
  (String.fromUTF8? ⟨bytes.toArray⟩).map String.toList

@[local grind] def decodeChars : List Char → Bytes → Option (List Char)
  | [], run => decodeBytes run
  | '%' :: h :: l :: cs, run => do
    let high ← hexValue? h
    let low ← hexValue? l
    decodeChars cs (run ++ [.ofNat (16 * high + low)])
  | c :: cs, run =>
    if c = '%' then none
    else do
      let before ← decodeBytes run
      let rest ← decodeChars cs []
      return before ++ c :: rest

/-- `decodeURIComponent(s)`; `none` is a thrown `URIError`. -/
def decodeURIComponent (s : String) : Option String := (decodeChars s.toList []).map .ofList

/-! ## Plain segments -/

/-- A segment that no function of a path or a URI changes. -/
structure Plain (s : String) : Prop where
  ne : s ≠ ""
  chars : ∀ c ∈ s.toList, isSegmentChar c
  head : s.toList.head? ≠ some '.'

/-- The check that a segment is plain. -/
def isPlain (s : String) : Bool :=
  !s.isEmpty && s.toList.all isSegmentChar && s.toList.head? != some '.'

theorem plain_of_isPlain {s : String} (h : isPlain s) : Plain s := by
  simp only [isPlain, Bool.and_eq_true, Bool.not_eq_true', bne_iff_ne] at h
  refine ⟨?_, List.all_eq_true.mp h.1.2, h.2⟩
  rintro rfl
  exact absurd h.1.1 (by simp)

theorem isSegmentChar_cases {c : Char} (h : isSegmentChar c) : c ≠ '/' ∧ c ≠ '%' := by
  refine ⟨?_, ?_⟩
  · rintro rfl
    exact absurd h (by decide)
  · rintro rfl
    exact absurd h (by decide)

theorem isUnreserved_of_isSegmentChar {c : Char} (h : isSegmentChar c) : isUnreserved c := by
  unfold isSegmentChar at h
  unfold isUnreserved
  simp only [Bool.or_eq_true, beq_iff_eq] at h
  rcases h with ((h | rfl) | rfl) | rfl
  · rw [h, Bool.true_or]
  · decide
  · decide
  · decide

theorem Plain.isPath {s : String} (h : Plain s) : s ≠ "" ∧ s ≠ "." ∧ s ≠ ".." ∧ '/' ∉ s.toList := by
  refine ⟨h.ne, ?_, ?_, fun hslash => (isSegmentChar_cases (h.chars _ hslash)).1 rfl⟩
  · rintro rfl
    exact h.head rfl
  · rintro rfl
    exact h.head rfl

theorem replaceRuns_chars (replaced : Bool) (cs : List Char) :
    ∀ c ∈ replaceRuns replaced cs, isSegmentChar c := by
  induction cs generalizing replaced with
  | nil =>
      intro c hc
      cases hc
  | cons d cs ih =>
      unfold replaceRuns
      split
      · next hd => exact List.forall_mem_cons.mpr ⟨hd, ih false⟩
      · split
        · exact ih true
        · exact List.forall_mem_cons.mpr ⟨by decide, ih true⟩

theorem trimEdges_head (cs : List Char) : (trimEdges cs).head? ≠ some '.' := by
  unfold trimEdges
  intro h
  obtain ⟨rest, hrest⟩ := List.rdropWhile_prefix isEdge (cs.dropWhile isEdge)
  cases hl : (cs.dropWhile isEdge).rdropWhile isEdge with
  | nil =>
    rw [hl] at h
    cases h
  | cons c rest' =>
    rw [hl] at h hrest
    obtain rfl := Option.some.inj h
    have hne : cs.dropWhile isEdge ≠ [] := by
      rw [← hrest]
      exact List.cons_ne_nil _ _
    have hhead := List.head_dropWhile_not isEdge hne
    simp only [← hrest, List.cons_append, List.head_cons] at hhead
    exact absurd hhead (by decide)

theorem plain_safeSegment (value : Option String) {fallback : String} (h : Plain fallback) :
    Plain (safeSegment value fallback) := by
  unfold safeSegment
  dsimp only
  split
  · exact h
  · next hne =>
    refine ⟨fun hempty => hne ?_, ?_, ?_⟩
    · rw [List.isEmpty_iff, ← String.toList_ofList (l := trimEdges _), hempty]
      rfl
    · rw [String.toList_ofList]
      intro c hc
      have hmem : c ∈ replaceRuns false (value.getD "").toList :=
        (List.dropWhile_sublist isEdge).subset ((List.rdropWhile_prefix isEdge _).subset hc)
      exact replaceRuns_chars _ _ c hmem
    · rw [String.toList_ofList]
      exact trimEdges_head _

theorem plain_categoryDirectory {category : Option String} {directory : String}
    (h : categoryDirectory category = .own directory) : Plain directory := by
  have hsegment : Plain (safeSegment (some (category.getD "artifact")) "artifact") :=
    plain_safeSegment _ (plain_of_isPlain (by decide))
  unfold categoryDirectory at h
  dsimp only at h
  split at h
  · next known hknown =>
    obtain rfl := Property.own.inj h
    have hall : knownCategories.all (fun e => isPlain e.2) = true := by decide
    exact plain_of_isPlain (List.all_eq_true.mp hall _ (Record.mem_of_get? hknown))
  · split at h
    · cases h
    · obtain rfl := Property.own.inj h
      exact hsegment

/-! ## Paths and their URIs -/

theorem splitChars_of_not_mem {sep : Char} {cs : List Char} (h : sep ∉ cs) :
    splitChars sep cs = [cs] := by
  induction cs with
  | nil => rfl
  | cons c cs ih =>
      unfold splitChars
      have hc : c ≠ sep := by
        rintro rfl
        exact h List.mem_cons_self
      rw [if_neg hc, ih (List.not_mem_of_not_mem_cons h)]

theorem resolveSegment_of_isPath {s : String} (h : s ≠ "" ∧ s ≠ "." ∧ s ≠ ".." ∧ '/' ∉ s.toList)
    (p : Path) : resolveSegment p s.toList = p ++ [s] := by
  have hne (t : String) (ht : s ≠ t) : s.toList ≠ t.toList := fun heq => ht (String.toList_inj.mp heq)
  have hdot : ¬ (s.toList = [] ∨ s.toList = ['.']) := not_or.mpr ⟨hne "" h.1, hne "." h.2.1⟩
  have hdots : s.toList ≠ ['.', '.'] := hne ".." h.2.2.1
  unfold resolveSegment
  rw [if_neg hdot, if_neg hdots, String.ofList_toList]

theorem resolve_of_isPath {s : String} (h : s ≠ "" ∧ s ≠ "." ∧ s ≠ ".." ∧ '/' ∉ s.toList)
    (p : Path) : resolve p s = p ++ [s] := by
  have hstart : startsWith s "/" = false := by
    unfold startsWith
    rw [Bool.eq_false_iff]
    intro hprefix
    have hmem := (List.isPrefixOf_iff_prefix.mp hprefix).subset List.mem_cons_self
    exact h.2.2.2 hmem
  unfold resolve
  rw [hstart, splitChars_of_not_mem h.2.2.2]
  exact resolveSegment_of_isPath h p

theorem isPath_resolveSegment {p : Path} (hp : IsPath p) {segment : List Char}
    (hslash : '/' ∉ segment) : IsPath (resolveSegment p segment) := by
  unfold resolveSegment
  split
  · exact hp
  · next hdot =>
    split
    · exact fun s hs => hp s (List.dropLast_subset p hs)
    · next hdots =>
      intro s hs
      rcases List.mem_append.mp hs with hs | hs
      · exact hp s hs
      · obtain rfl := List.mem_singleton.mp hs
        have hne (t : String) (ht : segment ≠ t.toList) : String.ofList segment ≠ t := by
          rintro rfl
          exact ht String.toList_ofList.symm
        refine ⟨hne "" fun h => hdot (.inl h), hne "." fun h => hdot (.inr h), hne ".." hdots, ?_⟩
        rwa [String.toList_ofList]

theorem not_mem_of_mem_splitChars {sep : Char} {cs level : List Char}
    (h : level ∈ splitChars sep cs) : sep ∉ level := by
  induction cs generalizing level with
  | nil =>
      obtain rfl := List.mem_singleton.mp h
      exact List.not_mem_nil
  | cons c cs ih =>
      unfold splitChars at h
      split at h
      · rcases List.mem_cons.mp h with rfl | h
        · exact List.not_mem_nil
        · exact ih h
      · next hc =>
        split at h
        · next first rest hcs =>
          rcases List.mem_cons.mp h with rfl | h
          · refine List.not_mem_cons_of_ne_of_not_mem (Ne.symm hc) (ih ?_)
            rw [hcs]
            exact List.mem_cons_self
          · refine ih ?_
            rw [hcs]
            exact List.mem_cons_of_mem _ h
        · obtain rfl := List.mem_singleton.mp h
          exact fun hmem => hc (List.mem_singleton.mp hmem).symm

theorem isPath_resolve {p : Path} (hp : IsPath p) (arg : String) : IsPath (resolve p arg) := by
  have hfold (segments : List (List Char)) (hall : ∀ segment ∈ segments, '/' ∉ segment) (q : Path)
      (hq : IsPath q) : IsPath (segments.foldl resolveSegment q) := by
    induction segments generalizing q with
    | nil => exact hq
    | cons segment segments ih =>
        obtain ⟨hsegment, hall⟩ := List.forall_mem_cons.mp hall
        exact ih hall _ (isPath_resolveSegment hq hsegment)
  unfold resolve
  refine hfold _ (fun segment h => not_mem_of_mem_splitChars h) _ ?_
  split
  · intro s hs
    cases hs
  · exact hp

theorem encodeURIComponent_plain {s : String} (h : ∀ c ∈ s.toList, isSegmentChar c) :
    encodeURIComponent s = s := by
  have hall (cs : List Char) (hcs : ∀ c ∈ cs, isSegmentChar c) : (cs.flatMap fun c =>
      if isUnreserved c then [c] else (String.utf8EncodeChar c).flatMap percent) = cs := by
    induction cs with
    | nil => rfl
    | cons c cs ih =>
        obtain ⟨hc, hcs⟩ := List.forall_mem_cons.mp hcs
        rw [List.flatMap_cons, if_pos (isUnreserved_of_isSegmentChar hc), ih hcs]
        rfl
  unfold encodeURIComponent
  rw [hall _ h, String.ofList_toList]

/-! ## Escapes and their decoding -/

/-- The characters with the escapes of those that are not kept. -/
def encodeWith (keep : Char → Bool) (cs : List Char) : List Char :=
  cs.flatMap fun c => if keep c then [c] else (String.utf8EncodeChar c).flatMap percent

/-- The bytes of characters in UTF-8. -/
def utf8Of (cs : List Char) : Bytes := cs.flatMap String.utf8EncodeChar

theorem decodeBytes_utf8Of (cs : List Char) : decodeBytes (utf8Of cs) = some cs := by
  have hbytes : (⟨(utf8Of cs).toArray⟩ : ByteArray) = (String.ofList cs).toUTF8 := by
    apply ByteArray.ext
    change (utf8Of cs).toArray = (cs.flatMap String.utf8EncodeChar).toByteArray.data
    rw [List.data_toByteArray]
    rfl
  have hvalid : String.fromUTF8? (String.ofList cs).toUTF8 = some (String.ofList cs) := by
    rw [String.fromUTF8?, dif_pos (show (String.ofList cs).toUTF8.IsValidUTF8 from (String.ofList cs).isValidUTF8)]
    rfl
  rw [decodeBytes, hbytes, hvalid, Option.map_some, String.toList_ofList]

theorem hexValue?_upperHexDigit : ∀ n < 16, hexValue? (upperHexDigit n) = some n := by decide

theorem decodeChars_percent (bytes run : Bytes) (rest : List Char) :
    decodeChars (bytes.flatMap percent ++ rest) run = decodeChars rest (run ++ bytes) := by
  induction bytes generalizing run with
  | nil => simp
  | cons b bytes ih =>
      have hbyte : UInt8.ofNat (16 * (b.toNat / 16) + b.toNat % 16) = b := by
        rw [Nat.div_add_mod]
        exact UInt8.ofNat_toNat
      have hhigh := hexValue?_upperHexDigit (b.toNat / 16) (by have := b.toNat_lt; omega)
      have hlow := hexValue?_upperHexDigit (b.toNat % 16) (Nat.mod_lt _ (by decide))
      rw [List.flatMap_cons, List.append_assoc, percent, List.cons_append, List.cons_append, List.cons_append,
        List.nil_append, decodeChars, hhigh, hlow]
      simp only [Option.bind_eq_bind, Option.bind_some, hbyte]
      rw [ih, List.append_assoc, List.singleton_append]

/-- What was escaped is decoded, whichever characters were kept. -/
theorem decodeChars_encodeWith {keep : Char → Bool} (hkeep : keep '%' = false) (cs before : List Char) :
    decodeChars (encodeWith keep cs) (utf8Of before) = some (before ++ cs) := by
  induction cs generalizing before with
  | nil => simpa [encodeWith, decodeChars] using decodeBytes_utf8Of before
  | cons c cs ih =>
      rw [encodeWith, List.flatMap_cons]
      cases hc : keep c with
      | true =>
          have hpercent : c ≠ '%' := by
            rintro rfl
            rw [hkeep] at hc
            cases hc
          rw [if_pos rfl, List.singleton_append, decodeChars, if_neg hpercent, decodeBytes_utf8Of]
          · have hrest : decodeChars (encodeWith keep cs) [] = some cs := ih []
            simp only [encodeWith] at hrest
            rw [hrest]
            rfl
          · exact fun _ _ _ heq => absurd heq hpercent
      | false =>
          have hbytes : utf8Of before ++ String.utf8EncodeChar c = utf8Of (before ++ [c]) := by
            simp [utf8Of]
          rw [if_neg Bool.false_ne_true, decodeChars_percent, hbytes]
          have hrest := ih (before ++ [c])
          rw [List.append_assoc, List.singleton_append] at hrest
          exact hrest

theorem decodeChars_encode {keep : Char → Bool} (hkeep : keep '%' = false) (cs : List Char) :
    decodeChars (encodeWith keep cs) [] = some cs :=
  decodeChars_encodeWith hkeep cs []

theorem decodeURIComponent_encodeURIComponent (s : String) : decodeURIComponent (encodeURIComponent s) = some s := by
  rw [decodeURIComponent, encodeURIComponent, String.toList_ofList]
  change (decodeChars (encodeWith isUnreserved s.toList) []).map String.ofList = some s
  rw [decodeChars_encode (by decide), Option.map_some, String.ofList_toList]

theorem not_mem_encode {keep : Char → Bool} {c : Char} (hc : c ≠ '/') :
    '/' ∉ if keep c then [c] else (String.utf8EncodeChar c).flatMap percent := by
  have hdigit : ∀ n < 16, '/' ≠ upperHexDigit n := by decide
  split
  · exact fun h => hc (List.mem_singleton.mp h).symm
  · intro h
    obtain ⟨b, -, hb⟩ := List.mem_flatMap.mp h
    simp only [percent, List.mem_cons, List.not_mem_nil, or_false] at hb
    rcases hb with hb | hb | hb
    · exact absurd hb (by decide)
    · exact hdigit _ (by have := b.toNat_lt; omega) hb
    · exact hdigit _ (Nat.mod_lt _ (by decide)) hb

theorem not_mem_encodeURIComponent {s : String} (h : '/' ∉ s.toList) : '/' ∉ (encodeURIComponent s).toList := by
  rw [encodeURIComponent, String.toList_ofList]
  intro hmem
  obtain ⟨c, hc, hmem⟩ := List.mem_flatMap.mp hmem
  refine not_mem_encode ?_ hmem
  rintro rfl
  exact h hc

end Storage
