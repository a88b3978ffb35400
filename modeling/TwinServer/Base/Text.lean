-- SUMMARY: JavaScript string operations on Lean strings: trimming, ASCII classes, UTF-16 slices, and the runtime services left abstract.
import TwinServer.Base.Number

/-!
# Text

A JavaScript string is represented by the Lean string with the same code points;
an unpaired surrogate is represented by the replacement character. The regular
expressions of a program become Boolean functions on the list of characters.
-/

namespace Js

/-! ## Characters -/

/-- The class `[0-9a-f]`. -/
def isLowerHex (c : Char) : Bool := c.isDigit || ('a' ≤ c && c ≤ 'f')

/-- The class `[A-Za-z0-9_]`. -/
def isWord (c : Char) : Bool := c.isAlphanum || c == '_'

/-- `WhiteSpace` and `LineTerminator`, the characters `trim` removes. -/
def isWhiteSpace (c : Char) : Bool :=
  let n := c.toNat
  (9 ≤ n && n ≤ 13) || n == 0x20 || n == 0xA0 || n == 0x1680 || (0x2000 ≤ n && n ≤ 0x200A) ||
    n == 0x2028 || n == 0x2029 || n == 0x202F || n == 0x205F || n == 0x3000 || n == 0xFEFF

def isAscii (c : Char) : Bool := c.toNat < 128

/-- Lower-casing leaves the class `[0-9a-f]` alone. -/
theorem isLowerHex_ascii {c : Char} (h : isLowerHex c) : isAscii c ∧ c.toLower = c := by
  simp only [isLowerHex, Bool.or_eq_true, Bool.and_eq_true, decide_eq_true_eq, Char.isDigit,
    Char.le_def, UInt32.le_iff_toNat_le] at h
  have hnine : ('9' : Char).val.toNat = 57 := rfl
  have ha : ('a' : Char).val.toNat = 97 := rfl
  have hf : ('f' : Char).val.toNat = 102 := rfl
  have hA : ('A' : Char).val.toNat = 65 := rfl
  have hZ : ('Z' : Char).val.toNat = 90 := rfl
  constructor
  · simp only [isAscii, Char.toNat, decide_eq_true_eq]
    grind
  · unfold Char.toLower
    split
    case isTrue hupper =>
      simp only [UInt32.le_iff_toNat_le, ge_iff_le] at hupper
      grind
    case isFalse => rfl

/-! ## Strings -/

/-- `String.prototype.trim`. -/
def trim (s : String) : String :=
  .ofList (((s.toList.dropWhile isWhiteSpace).reverse.dropWhile isWhiteSpace).reverse)

/-- The expression `/^\d+$/`. -/
def isDigits (s : String) : Bool := !s.toList.isEmpty && s.toList.all Char.isDigit

/-- The number a digit string denotes. -/
def digitsToNat (s : String) : Nat :=
  s.toList.foldl (fun n c => 10 * n + (c.toNat - '0'.toNat)) 0

/-- `s.startsWith(p)`. -/
def startsWith (s p : String) : Bool := p.toList.isPrefixOf s.toList

/-- The UTF-16 length of a character. -/
def utf16Width (c : Char) : Nat := if c.toNat < 0x10000 then 1 else 2

/-- The length of a string in code units. -/
def utf16Length (s : String) : Nat := s.toList.foldl (fun n c => n + utf16Width c) 0

/-- `s.slice(0, n)` in code units. A character cut in half leaves an unpaired
surrogate, hence a replacement character. -/
def takeUnits : Nat → List Char → List Char
  | 0, _ => []
  | _, [] => []
  | n + 1, c :: cs =>
    if utf16Width c = 1 then c :: takeUnits n cs
    else
      match n with
      | 0 => ['\uFFFD']
      | n + 1 => c :: takeUnits n cs

def sliceTo (n : Nat) (s : String) : String := .ofList (takeUnits n s.toList)

theorem takeUnits_cons (n : Nat) {c : Char} (cs : List Char) (h : utf16Width c = 1) :
    takeUnits (n + 1) (c :: cs) = c :: takeUnits n cs := by
  rw [takeUnits.eq_def]
  exact if_pos h

theorem takeUnits_wide (n : Nat) {c : Char} (cs : List Char) (h : utf16Width c ≠ 1) :
    takeUnits (n + 2) (c :: cs) = c :: takeUnits n cs := if_neg h

theorem takeUnits_half {c : Char} (cs : List Char) (h : utf16Width c ≠ 1) :
    takeUnits 1 (c :: cs) = ['\uFFFD'] := if_neg h

@[simp] theorem takeUnits_nil (n : Nat) : takeUnits n [] = [] := by cases n <;> rfl

/-- What is cut off a text at a length is not there to be cut off again. -/
theorem takeUnits_takeUnits (n : Nat) (cs : List Char) : takeUnits n (takeUnits n cs) = takeUnits n cs := by
  induction cs generalizing n with
  | nil => rw [takeUnits_nil, takeUnits_nil]
  | cons c cs ih =>
    by_cases hwidth : utf16Width c = 1
    · cases n with
      | zero => rfl
      | succ n => rw [takeUnits_cons n cs hwidth, takeUnits_cons n _ hwidth, ih]
    · match n with
      | 0 => rfl
      | 1 => rw [takeUnits_half cs hwidth, takeUnits_cons 0 [] (by decide), takeUnits_nil]
      | n + 2 => rw [takeUnits_wide n cs hwidth, takeUnits_wide n _ hwidth, ih]

@[simp] theorem sliceTo_sliceTo (n : Nat) (s : String) : sliceTo n (sliceTo n s) = sliceTo n s := by
  rw [sliceTo, sliceTo, String.toList_ofList, takeUnits_takeUnits]

/-- `s.replace(/^p/, "")` for a literal prefix `p`. -/
def stripPrefix (p s : String) : String :=
  if startsWith s p then .ofList (s.toList.drop p.length) else s

/-- The replacement text with its `$` patterns expanded, for a match with the given
text before and after it. -/
def expand (before matched after : List Char) : List Char → List Char
  | '$' :: '$' :: cs => '$' :: expand before matched after cs
  | '$' :: '&' :: cs => matched ++ expand before matched after cs
  | '$' :: '\x60' :: cs => before ++ expand before matched after cs
  | '$' :: '\x27' :: cs => after ++ expand before matched after cs
  | c :: cs => c :: expand before matched after cs
  | [] => []

/-- The rest of a string with the matches of a non-empty pattern replaced; `skip`
characters belong to the last match, `before` is what was read, backwards. -/
def replaceFrom (pattern replacement : List Char) : Nat → List Char → List Char → List Char
  | _, _, [] => []
  | skip + 1, before, c :: cs => replaceFrom pattern replacement skip (c :: before) cs
  | 0, before, c :: cs =>
    if pattern.isPrefixOf (c :: cs) then
      expand before.reverse pattern ((c :: cs).drop pattern.length) replacement ++
        replaceFrom pattern replacement (pattern.length - 1) (c :: before) cs
    else c :: replaceFrom pattern replacement 0 (c :: before) cs

/-- `s.replaceAll(pattern, replacement)`. -/
def replaceAll (s pattern replacement : String) : String :=
  .ofList (replaceFrom pattern.toList replacement.toList 0 [] s.toList)

/-- Lower-casing on ASCII. -/
def asciiLower (s : String) : String := .ofList (s.toList.map Char.toLower)

theorem toLower_toLower (c : Char) : c.toLower.toLower = c.toLower := by
  have hA : ('A' : Char).val.toNat = 65 := rfl
  have hZ : ('Z' : Char).val.toNat = 90 := rfl
  unfold Char.toLower
  split
  case isTrue h =>
    simp only [UInt32.le_iff_toNat_le, ge_iff_le] at h
    have hval : (c.val + ('a'.val - 'A'.val)).toNat = c.val.toNat + 32 := by
      rw [UInt32.toNat_add]
      have hgap : ('a'.val - 'A'.val).toNat = 32 := rfl
      omega
    split
    case isTrue h' =>
      simp only [UInt32.le_iff_toNat_le, ge_iff_le] at h'
      omega
    case isFalse => rfl
  case isFalse => rfl

theorem asciiLower_asciiLower (s : String) : asciiLower (asciiLower s) = asciiLower s := by
  simp only [asciiLower, String.toList_ofList, List.map_map]
  congr 1
  exact List.map_congr_left fun c _ => toLower_toLower c

/-- The object id in which one digit is repeated. -/
def objectId (digit : Char) : String := "0x" ++ .ofList (.replicate 64 digit)

/-- The properties every object inherits. -/
def inheritedProperties : List String :=
  ["constructor", "__defineGetter__", "__defineSetter__", "hasOwnProperty", "__lookupGetter__",
    "__lookupSetter__", "isPrototypeOf", "propertyIsEnumerable", "toString", "valueOf", "__proto__",
    "toLocaleString"]

/-! ## The runtime -/

/-- What a JavaScript runtime supplies and the model leaves open: case mapping
outside ASCII, which depends on the Unicode version, and the conversions between
numbers and strings outside the safe integers. -/
class Runtime where
  /-- `String.prototype.toLowerCase`. -/
  toLowerCase : String → String
  /-- `String(x)` on numbers. -/
  numberToString : Number → String
  /-- `Number(s)` on strings. -/
  stringToNumber : String → Number
  toLowerCase_ascii : ∀ s, s.toList.all isAscii → toLowerCase s = asciiLower s
  numberToString_nat : ∀ n ≤ Number.maxSafe, numberToString n = n.repr
  /-- A digit string beyond the safe range is rounded to a number beyond it. -/
  stringToNumber_digits : ∀ s, isDigits s →
    (stringToNumber s).safeNat? =
      if digitsToNat s ≤ Number.maxSafe then some (digitsToNat s) else none

export Runtime (toLowerCase numberToString stringToNumber)

/-- A runtime that lower-cases ASCII only and converts naturals only. -/
@[reducible] def Runtime.ascii : Runtime where
  toLowerCase := asciiLower
  numberToString x := match x.safeNat? with
    | some n => n.repr
    | none => "NaN"
  stringToNumber s := if isDigits s then digitsToNat s else .nan
  toLowerCase_ascii _ _ := rfl
  numberToString_nat n hn := by
    have h : Number.safeNat? n = some n := by
      rw [Number.safeNat?_ofNat, if_pos hn]
    simp only [h]
  stringToNumber_digits s hs := by
    rw [if_pos hs, Number.safeNat?_ofNat]

end Js
