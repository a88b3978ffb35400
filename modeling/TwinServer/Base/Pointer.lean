-- SUMMARY: JSON pointers: their text, their tokens, and the value a path of tokens leads to.
import TwinServer.Base.Json

/-!
# JSON pointers

A pointer is the text of a path: every token after a slash, with the slash and the tilde escaped. The text
determines a path of at least one token. The path without a token has the text of the path of one empty
token here, as in every program that writes the slash first.
-/

namespace Js.Pointer

/-! ## The text -/

/-- `s.replace(/c/g, text)` for a character that is no special one. -/
def replaceChar (c : Char) (text : String) (s : String) : String :=
  .ofList (s.toList.flatMap fun d => if d = c then text.toList else [d])

/-- A token with its special characters escaped. -/
def escape (token : String) : String := replaceChar '/' "~1" (replaceChar '~' "~0" token)

def encode (path : List String) : String := "/" ++ "/".intercalate (path.map escape)

def unescapeChars : List Char → List Char
  | '~' :: '1' :: cs => '/' :: unescapeChars cs
  | '~' :: '0' :: cs => '~' :: unescapeChars cs
  | c :: cs => c :: unescapeChars cs
  | [] => []

/-- The tokens of a pointer. The empty text points to the whole value, and any other begins with a slash. -/
def tokens (pointer : String) : Option (List String) :=
  match pointer.toList with
  | [] => some []
  | c :: cs =>
    if c = '/' then some ((cs.splitOn '/').map fun token => .ofList (unescapeChars token)) else none

def escapeChar (c : Char) : List Char :=
  if c = '~' then ['~', '0'] else if c = '/' then ['~', '1'] else [c]

theorem toList_escape (token : String) : (escape token).toList = token.toList.flatMap escapeChar := by
  have hchar : ∀ c : Char, ((if c = '~' then "~0".toList else [c]).flatMap fun d =>
      if d = '/' then "~1".toList else [d]) = escapeChar c := by
    intro c
    unfold escapeChar
    by_cases hc : c = '~'
    · rw [if_pos hc, if_pos hc]
      rfl
    · rw [if_neg hc, if_neg hc, List.flatMap_cons, List.flatMap_nil, List.append_nil]
      rfl
  simp only [escape, replaceChar, String.toList_ofList, List.flatMap_assoc, hchar]

theorem unescapeChars_escapeChar (c : Char) (cs : List Char) :
    unescapeChars (escapeChar c ++ cs) = c :: unescapeChars cs := by
  unfold escapeChar
  by_cases htilde : c = '~'
  · subst htilde
    rfl
  · by_cases hslash : c = '/'
    · subst hslash
      rfl
    · rw [if_neg htilde, if_neg hslash, List.singleton_append, unescapeChars]
      · exact fun cs' h => absurd h htilde
      · exact fun cs' h => absurd h htilde

theorem unescapeChars_flatMap (cs : List Char) : unescapeChars (cs.flatMap escapeChar) = cs := by
  induction cs with
  | nil => rfl
  | cons c cs ih => rw [List.flatMap_cons, unescapeChars_escapeChar, ih]

theorem slash_not_mem_escape (token : String) : '/' ∉ (escape token).toList := by
  rw [toList_escape, List.mem_flatMap]
  rintro ⟨c, -, hc⟩
  unfold escapeChar at hc
  split at hc
  · simp at hc
  · split at hc
    · simp at hc
    · exact ‹¬ c = '/'› (List.mem_singleton.mp hc).symm

/-- The text of a path of at least one token has the tokens of the path. -/
theorem tokens_encode {path : List String} (h : path ≠ []) : tokens (encode path) = some path := by
  have hsplit : List.splitOn '/' ("/".intercalate (path.map escape)).toList =
      path.map fun token => (escape token).toList := by
    rw [String.toList_intercalate, List.map_map]
    refine List.splitOn_intercalate '/' (fun l hl => ?_) (by simpa using h)
    obtain ⟨token, -, rfl⟩ := List.mem_map.mp hl
    exact slash_not_mem_escape token
  have hlist : (encode path).toList = '/' :: ("/".intercalate (path.map escape)).toList := by
    rw [encode, String.toList_append]
    rfl
  have htoken : ∀ token : String, String.ofList (unescapeChars (escape token).toList) = token := by
    intro token
    rw [toList_escape, unescapeChars_flatMap, String.ofList_toList]
  rw [tokens, hlist]
  simp only [if_true, hsplit, List.map_map]
  simp [Function.comp_def, htoken]

theorem encode_injective {p q : List String} (hp : p ≠ []) (hq : q ≠ []) (h : encode p = encode q) : p = q := by
  have htokens := tokens_encode hp
  rw [h, tokens_encode hq] at htokens
  exact (Option.some.inj htokens).symm

/-! ## The value -/

/-- The token of an index: digits without a zero in front. -/
def isIndex (token : String) : Bool :=
  isDigits token && (token == "0" || token.toList.head? != some '0')

/-- The value at a path. -/
@[local grind] def resolve : Json → List String → Option Json
  | v, [] => some v
  | .object fields, k :: path => (Record.get? fields k).bind (resolve · path)
  | .array items, k :: path =>
    if isIndex k then items[digitsToNat k]?.bind (resolve · path) else none
  | _, _ :: _ => none

end Js.Pointer
