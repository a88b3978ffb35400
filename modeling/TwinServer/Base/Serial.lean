-- SUMMARY: The text JSON.stringify writes, and that two values with one text differ in nothing the text can show.
import Mathlib.Logic.Equiv.List
import Mathlib.Tactic.IntervalCases
import TwinServer.Base.Json

/-!
# Serialisation

`JSON.stringify` without indentation. It writes a number that is not finite as `null`,
so the text determines a value up to that. The proof is a cancellation law: a text is
never the beginning of another one that goes on where a value has ended.
-/

namespace Js

/-! ## Texts that cancel -/

/-- A value ends before the text: at its end, or at a character that follows values. -/
def Closes (r : List Char) : Prop := ∀ c cs, r = c :: cs → c = ',' ∨ c = ']' ∨ c = '}'

/-- Neither text goes on where the other has ended. -/
def Cancels (t u : List Char) : Prop :=
  ∀ r r', Closes r → Closes r' → t ++ r = u ++ r' → t = u ∧ r = r'

/-- The texts one after the other, with commas between them. -/
def separated : List (List Char) → List Char
  | [] => []
  | t :: ts => t ++ ts.flatMap (',' :: ·)

theorem closes_nil : Closes [] := fun _ _ h => by cases h

theorem closes_cons {c : Char} (h : c = ',' ∨ c = ']' ∨ c = '}') (cs : List Char) :
    Closes (c :: cs) := by
  rintro d ds hd
  obtain ⟨rfl, rfl⟩ := List.cons.inj hd
  exact h

theorem closes_tail {close : Char} (hclose : close = ']' ∨ close = '}') (ts : List (List Char))
    (r : List Char) : Closes (ts.flatMap (',' :: ·) ++ close :: r) := by
  cases ts with
  | nil => exact closes_cons (.inr hclose) _
  | cons t ts => exact closes_cons (.inl rfl) _

/-- A text that begins with a character that no value follows. -/
def Opens (t : List Char) : Prop := ∃ c cs, t = c :: cs ∧ c ≠ ',' ∧ c ≠ ']' ∧ c ≠ '}'

theorem cancel_tail {close : Char} (hclose : close = ']' ∨ close = '}') {ts us : List (List Char)}
    (hcancel : ∀ t ∈ ts, ∀ u ∈ us, Cancels t u) {r r' : List Char}
    (h : ts.flatMap (',' :: ·) ++ close :: r = us.flatMap (',' :: ·) ++ close :: r') :
    ts = us ∧ r = r' := by
  have hcomma : close ≠ ',' := by rcases hclose with rfl | rfl <;> decide
  induction ts generalizing us with
  | nil =>
      cases us with
      | nil => exact ⟨rfl, (List.cons.inj h).2⟩
      | cons u us => exact absurd (List.cons.inj h).1 hcomma
  | cons t ts ih =>
      cases us with
      | nil => exact absurd (List.cons.inj h).1.symm hcomma
      | cons u us =>
        simp only [List.flatMap_cons, List.cons_append, List.append_assoc, List.cons.injEq,
          true_and] at h
        obtain ⟨rfl, hrest⟩ := hcancel t List.mem_cons_self u List.mem_cons_self _ _
          (closes_tail hclose ts r) (closes_tail hclose us r') h
        obtain ⟨rfl, hr⟩ := ih (fun t ht u hu =>
          hcancel t (List.mem_cons_of_mem _ ht) u (List.mem_cons_of_mem _ hu)) hrest
        exact ⟨rfl, hr⟩

/-- Lists of texts that cancel, each closed by the same character, cancel. -/
theorem cancel_separated {close : Char} (hclose : close = ']' ∨ close = '}')
    {ts us : List (List Char)} (hcancel : ∀ t ∈ ts, ∀ u ∈ us, Cancels t u)
    (hts : ∀ t ∈ ts, Opens t) (hus : ∀ u ∈ us, Opens u) {r r' : List Char}
    (h : separated ts ++ close :: r = separated us ++ close :: r') : ts = us ∧ r = r' := by
  have hopen : ∀ {t : List Char} {s s' : List Char}, Opens t → t ++ s ≠ close :: s' := by
    rintro _ s s' ⟨c, cs, rfl, -, hbracket, hbrace⟩ heq
    obtain rfl := (List.cons.inj heq).1
    rcases hclose with rfl | rfl
    · exact hbracket rfl
    · exact hbrace rfl
  cases ts with
  | nil =>
    cases us with
    | nil => exact ⟨rfl, (List.cons.inj h).2⟩
    | cons u us =>
      simp only [separated, List.append_assoc, List.nil_append] at h
      exact absurd h.symm (hopen (hus u List.mem_cons_self))
  | cons t ts =>
    cases us with
    | nil =>
      simp only [separated, List.append_assoc, List.nil_append] at h
      exact absurd h (hopen (hts t List.mem_cons_self))
    | cons u us =>
      simp only [separated, List.append_assoc] at h
      obtain ⟨rfl, hrest⟩ := hcancel t List.mem_cons_self u List.mem_cons_self _ _
        (closes_tail hclose ts r) (closes_tail hclose us r') h
      obtain ⟨rfl, hr⟩ := cancel_tail hclose (fun t ht u hu =>
        hcancel t (List.mem_cons_of_mem _ ht) u (List.mem_cons_of_mem _ hu)) hrest
      exact ⟨rfl, hr⟩

/-! ## Strings -/

/-- A character inside a quoted string. -/
@[local grind] def escape (c : Char) : List Char :=
  if c = '"' then ['\\', '"']
  else if c = '\\' then ['\\', '\\']
  else if c.toNat < 0x20 then
    match c.toNat with
    | 8 => ['\\', 'b']
    | 9 => ['\\', 't']
    | 10 => ['\\', 'n']
    | 12 => ['\\', 'f']
    | 13 => ['\\', 'r']
    | n => ['\\', 'u', '0', '0', (n / 16).digitChar, (n % 16).digitChar]
  else [c]

def quote (s : String) : List Char := '"' :: (s.toList.flatMap escape ++ ['"'])

def hexValue (c : Char) : Nat := if c.isDigit then c.toNat - 48 else c.toNat - 87

/-- The first character of the inside of a quoted string, and what follows it. -/
def unescape : List Char → Option (Char × List Char)
  | '\\' :: 'u' :: _ :: _ :: x :: y :: r => some (.ofNat (16 * hexValue x + hexValue y), r)
  | '\\' :: 'b' :: r => some (.ofNat 8, r)
  | '\\' :: 't' :: r => some (.ofNat 9, r)
  | '\\' :: 'n' :: r => some (.ofNat 10, r)
  | '\\' :: 'f' :: r => some (.ofNat 12, r)
  | '\\' :: 'r' :: r => some (.ofNat 13, r)
  | '\\' :: c :: r => some (c, r)
  | c :: r => some (c, r)
  | [] => none

theorem unescape_control (n : Nat) (hn : n < 0x20) (r : List Char) :
    unescape (escape (.ofNat n) ++ r) = some (.ofNat n, r) := by
  interval_cases n <;> rfl

theorem escape_of_visible {c : Char} (hquote : c ≠ '"') (hslash : c ≠ '\\')
    (hcontrol : ¬ c.toNat < 0x20) : escape c = [c] := by
  unfold escape
  rw [if_neg hquote, if_neg hslash, if_neg hcontrol]

theorem unescape_escape (c : Char) (r : List Char) : unescape (escape c ++ r) = some (c, r) := by
  rcases Decidable.em (c.toNat < 0x20) with hcontrol | hcontrol
  · have h := unescape_control c.toNat hcontrol r
    rwa [Char.ofNat_toNat] at h
  · rcases Decidable.em (c = '"') with rfl | hquote
    · rfl
    · rcases Decidable.em (c = '\\') with rfl | hslash
      · rfl
      · rw [escape_of_visible hquote hslash hcontrol]
        simp [unescape, hslash]

theorem escape_head (c : Char) : ∃ d cs, escape c = d :: cs ∧ d ≠ '"' := by
  rcases Decidable.em (c = '"') with rfl | hquote
  · exact ⟨_, _, rfl, by decide⟩
  · rcases Decidable.em (c = '\\') with rfl | hslash
    · exact ⟨_, _, rfl, by decide⟩
    · rcases Decidable.em (c.toNat < 0x20) with hcontrol | hcontrol
      · unfold escape
        rw [if_neg hquote, if_neg hslash, if_pos hcontrol]
        split <;> exact ⟨_, _, rfl, by decide⟩
      · exact ⟨c, [], escape_of_visible hquote hslash hcontrol, hquote⟩

theorem cancel_escapes {s t r r' : List Char}
    (h : s.flatMap escape ++ '"' :: r = t.flatMap escape ++ '"' :: r') : s = t ∧ r = r' := by
  induction s generalizing t with
  | nil =>
      cases t with
      | nil => exact ⟨rfl, (List.cons.inj h).2⟩
      | cons d t =>
        obtain ⟨c, cs, hescape, hc⟩ := escape_head d
        rw [List.flatMap_cons, hescape] at h
        exact absurd (List.cons.inj h).1.symm hc
  | cons d s ih =>
      cases t with
      | nil =>
        obtain ⟨c, cs, hescape, hc⟩ := escape_head d
        rw [List.flatMap_cons, hescape] at h
        exact absurd (List.cons.inj h).1 hc
      | cons e t =>
        rw [List.flatMap_cons, List.flatMap_cons, List.append_assoc, List.append_assoc] at h
        have hread := congrArg unescape h
        rw [unescape_escape, unescape_escape, Option.some.injEq, Prod.mk.injEq] at hread
        obtain ⟨rfl, hrest⟩ := hread
        obtain ⟨rfl, hr⟩ := ih hrest
        exact ⟨rfl, hr⟩

theorem cancel_quote {s t : String} {r r' : List Char} (h : quote s ++ r = quote t ++ r') :
    s = t ∧ r = r' := by
  simp only [quote, List.cons_append, List.append_assoc, List.cons.injEq, true_and,
    List.nil_append] at h
  obtain ⟨hchars, hr⟩ := cancel_escapes h
  exact ⟨String.toList_inj.mp hchars, hr⟩

theorem opens_quote (s : String) : Opens (quote s) := ⟨'"', _, rfl, by decide, by decide, by decide⟩

/-! ## Numbers -/

/-- A character of a number. -/
def isNumeric (c : Char) : Bool := c.isDigit || c == '-' || c == '+' || c == '.' || c == 'e'

/-- What `Number::toString` of a runtime guarantees for finite numbers: the text of a
number consists of digits, signs, a point and an exponent, and no two numbers share one. -/
class NumberText [Runtime] : Prop where
  numeric : ∀ x : Number, x.isFinite → ∃ c cs, (numberToString x).toList = c :: cs ∧
    ∀ d ∈ c :: cs, isNumeric d
  injective : ∀ x y : Number, x.isFinite → y.isFinite → numberToString x = numberToString y → x = y

theorem cancel_numeric {t u : List Char} (ht : ∀ c ∈ t, isNumeric c) (hu : ∀ c ∈ u, isNumeric c) :
    Cancels t u := by
  have hend : ∀ {r : List Char}, Closes r → r.takeWhile isNumeric = [] := by
    intro r hr
    cases r with
    | nil => rfl
    | cons c cs =>
      rcases hr c cs rfl with rfl | rfl | rfl <;> rfl
  intro r r' hr hr' h
  have htake := congrArg (List.takeWhile isNumeric) h
  rw [List.takeWhile_append_of_pos ht, List.takeWhile_append_of_pos hu, hend hr, hend hr',
    List.append_nil, List.append_nil] at htake
  subst htake
  exact ⟨rfl, List.append_cancel_left h⟩

/-! ## Values -/

namespace Json

section
variable [Runtime]

def numberText (x : Number) : List Char :=
  if x.isFinite then (numberToString x).toList else "null".toList

mutual

/-- `JSON.stringify`, as a list of characters. -/
@[local grind] def write : Json → List Char
  | .null => "null".toList
  | .bool b => (if b then "true" else "false").toList
  | .number x => numberText x
  | .string s => quote s
  | .array items => '[' :: (separated (writeItems items) ++ [']'])
  | .object fields => '{' :: (separated (writeMembers [] fields) ++ ['}'])

def writeItems : List Json → List (List Char)
  | [] => []
  | v :: items => write v :: writeItems items

/-- The members of an object, each key once. -/
def writeMembers (seen : List String) : List (String × Json) → List (List Char)
  | [] => []
  | (k, v) :: fields =>
    if seen.contains k then writeMembers seen fields
    else (quote k ++ ':' :: write v) :: writeMembers (k :: seen) fields

end

/-- `JSON.stringify`. -/
def stringify (v : Json) : String := .ofList v.write

end

mutual

/-- What is left of a value in its text: a number that is not finite becomes `null`, and
of two entries for a key the first counts. -/
@[local grind] def written : Json → Json
  | .null => .null
  | .bool b => .bool b
  | .number x => if x.isFinite then .number x else .null
  | .string s => .string s
  | .array items => .array (writtenItems items)
  | .object fields => .object (writtenMembers [] fields)

@[local grind] def writtenItems : List Json → List Json
  | [] => []
  | v :: items => written v :: writtenItems items

@[local grind] def writtenMembers (seen : List String) : List (String × Json) → List (String × Json)
  | [] => []
  | (k, v) :: fields =>
    if seen.contains k then writtenMembers seen fields
    else (k, written v) :: writtenMembers (k :: seen) fields

end

/-! ### Items and members -/

/-- The entries of an object, each key once. -/
def distinct (seen : List String) : List (String × Json) → List (String × Json)
  | [] => []
  | (k, v) :: fields =>
    if seen.contains k then distinct seen fields else (k, v) :: distinct (k :: seen) fields

theorem mem_of_mem_distinct {seen : List String} {fields : List (String × Json)}
    {e : String × Json} (h : e ∈ distinct seen fields) : e ∈ fields := by
  induction fields generalizing seen with
  | nil => exact h
  | cons e' fields ih =>
      obtain ⟨k, v⟩ := e'
      unfold distinct at h
      split at h
      · exact List.mem_cons_of_mem _ (ih h)
      · rcases List.mem_cons.mp h with rfl | h
        · exact List.mem_cons_self
        · exact List.mem_cons_of_mem _ (ih h)

theorem get?_distinct {seen : List String} {k : String} (hk : k ∉ seen)
    (fields : List (String × Json)) : Record.get? (distinct seen fields) k = Record.get? fields k := by
  induction fields generalizing seen with
  | nil => rfl
  | cons e fields ih =>
      obtain ⟨k', v⟩ := e
      unfold distinct
      rw [Record.get?_cons]
      split
      case isTrue hseen =>
        have hne : k ≠ k' := fun h => hk (h ▸ List.contains_iff_mem.mp hseen)
        rw [if_neg hne]
        exact ih hk
      case isFalse =>
        rw [Record.get?_cons]
        split
        case isTrue => rfl
        case isFalse hne => exact ih (List.not_mem_cons_of_ne_of_not_mem hne hk)

theorem writtenItems_eq (items : List Json) : writtenItems items = items.map written := by
  induction items with
  | nil => rfl
  | cons v items ih => rw [writtenItems, ih, List.map_cons]

theorem writtenMembers_eq (seen : List String) (fields : List (String × Json)) :
    writtenMembers seen fields = (distinct seen fields).map fun e => (e.1, written e.2) := by
  induction fields generalizing seen with
  | nil => rfl
  | cons e fields ih =>
      obtain ⟨k, v⟩ := e
      unfold writtenMembers distinct
      split
      · exact ih seen
      · rw [ih, List.map_cons]

/-- What is left of a property. -/
theorem get?_written (fields : List (String × Json)) (k : String) :
    (written (.object fields)).get? k = (Record.get? fields k).map written := by
  have hmap (es : List (String × Json)) :
      Record.get? (es.map fun e => (e.1, written e.2)) k = (Record.get? es k).map written := by
    induction es with
    | nil => rfl
    | cons e es ih =>
        obtain ⟨k', v⟩ := e
        rw [List.map_cons, Record.get?_cons, Record.get?_cons, ih]
        split <;> rfl
  show Record.get? (writtenMembers [] fields) k = _
  rw [writtenMembers_eq, hmap, get?_distinct List.not_mem_nil]

theorem written_eq_string {v : Json} {s : String} : written v = .string s ↔ v = .string s := by
  cases v with
  | number x =>
    rw [written]
    split <;> simp
  | null => simp [written]
  | bool b => simp [written]
  | string t => simp [written]
  | array items => simp [written]
  | object fields => simp [written]

/-- What is left of a record in its text. -/
def leftOf (m : Record Json) : Record Json := writtenMembers [] m

theorem get?_leftOf (m : Record Json) (k : String) : (leftOf m).get? k = (m.get? k).map written :=
  get?_written m k

/-- The keys of the entries differ. -/
theorem nodup_distinct (seen : List String) (fields : List (String × Json)) :
    ((distinct seen fields).map Prod.fst).Nodup ∧ ∀ e ∈ distinct seen fields, e.1 ∉ seen := by
  induction fields generalizing seen with
  | nil => exact ⟨List.nodup_nil, fun e h => absurd h List.not_mem_nil⟩
  | cons e fields ih =>
      obtain ⟨k, v⟩ := e
      unfold distinct
      split
      case isTrue => exact ih seen
      case isFalse hk =>
        obtain ⟨hnodup, hnew⟩ := ih (k :: seen)
        constructor
        · rw [List.map_cons, List.nodup_cons]
          refine ⟨fun hmem => ?_, hnodup⟩
          obtain ⟨e, he, rfl⟩ := List.mem_map.mp hmem
          exact hnew e he List.mem_cons_self
        · intro e he
          rcases List.mem_cons.mp he with rfl | he
          · exact fun h => hk (List.contains_iff_mem.mpr h)
          · exact fun h => hnew e he (List.mem_cons_of_mem _ h)

theorem distinct_eq_self {seen : List String} {fields : List (String × Json)}
    (hnodup : (fields.map Prod.fst).Nodup) (hnew : ∀ e ∈ fields, e.1 ∉ seen) : distinct seen fields = fields := by
  induction fields generalizing seen with
  | nil => rfl
  | cons e fields ih =>
      rw [List.map_cons, List.nodup_cons] at hnodup
      rw [distinct, if_neg fun h => hnew e List.mem_cons_self (List.contains_iff_mem.mp h)]
      congr 1
      apply ih hnodup.2
      intro e' he' hmem
      rcases List.mem_cons.mp hmem with hsame | hmem
      · exact hnodup.1 (hsame ▸ List.mem_map_of_mem he')
      · exact hnew e' (List.mem_cons_of_mem _ he') hmem

mutual

/-- A value that was read is written as it was. -/
theorem written_written : ∀ v : Json, written (written v) = written v
  | .null => rfl
  | .bool _ => rfl
  | .string _ => rfl
  | .number x => by
    rw [written]
    split
    · rw [written, if_pos ‹_›]
    · rfl
  | .array items => by
    rw [written, written, writtenItems_eq, writtenItems_eq, List.map_map]
    exact congrArg Json.array (List.map_congr_left (writtenItems_written items))
  | .object fields => by
    have hmembers := writtenMembers_written fields
    obtain ⟨hnodup, -⟩ := nodup_distinct [] fields
    have hkeys : ((distinct [] fields).map fun e => (e.1, written e.2)).map Prod.fst =
        (distinct [] fields).map Prod.fst := by
      rw [List.map_map]
      rfl
    rw [written, written, writtenMembers_eq, writtenMembers_eq,
      distinct_eq_self (hkeys ▸ hnodup) fun e _ => List.not_mem_nil, List.map_map]
    congr 1
    apply List.map_congr_left
    intro e he
    exact congrArg (e.1, ·) (hmembers e (mem_of_mem_distinct he))

theorem writtenItems_written : ∀ items : List Json, ∀ v ∈ items, written (written v) = written v
  | [], _, h => absurd h List.not_mem_nil
  | v :: items, w, h => by
    rcases List.mem_cons.mp h with heq | h
    · rw [heq]
      exact written_written v
    · exact writtenItems_written items w h

theorem writtenMembers_written :
    ∀ fields : List (String × Json), ∀ e ∈ fields, written (written e.2) = written e.2
  | [], _, h => absurd h List.not_mem_nil
  | (k, v) :: fields, e, h => by
    rcases List.mem_cons.mp h with heq | h
    · rw [heq]
      exact written_written v
    · exact writtenMembers_written fields e h

end

theorem leftOf_leftOf (m : Record Json) : leftOf (leftOf m) = leftOf m :=
  Json.object.inj (written_written (.object m))

section
variable [Runtime]

/-- One member of an object. -/
def memberText (e : String × Json) : List Char := quote e.1 ++ ':' :: write e.2

theorem writeItems_eq (items : List Json) : writeItems items = items.map write := by
  induction items with
  | nil => rfl
  | cons v items ih => rw [writeItems, ih, List.map_cons]

theorem writeMembers_eq (seen : List String) (fields : List (String × Json)) :
    writeMembers seen fields = (distinct seen fields).map memberText := by
  induction fields generalizing seen with
  | nil => rfl
  | cons e fields ih =>
      obtain ⟨k, v⟩ := e
      unfold writeMembers distinct
      split
      · exact ih seen
      · rw [ih, List.map_cons]
        rfl

end

/-- When two readings of the elements of two lists tell the same elements apart, equal
lists under one are equal under the other. -/
theorem map_eq_map_of {α β γ : Type} {f : α → β} {g : α → γ} {as bs : List α}
    (hfg : ∀ a ∈ as, ∀ b ∈ bs, f a = f b → g a = g b) (h : as.map f = bs.map f) :
    as.map g = bs.map g := by
  induction as generalizing bs with
  | nil =>
      cases bs with
      | nil => rfl
      | cons b bs => cases h
  | cons a as ih =>
      cases bs with
      | nil => cases h
      | cons b bs =>
        obtain ⟨hab, hrest⟩ := List.cons.inj h
        rw [List.map_cons, List.map_cons, hfg a List.mem_cons_self b List.mem_cons_self hab]
        rw [ih (fun a ha b hb => hfg a (List.mem_cons_of_mem _ ha) b (List.mem_cons_of_mem _ hb))
          hrest]

/-! ### Kinds -/

/-- What a text can show of a value at its beginning. -/
inductive Kind where
  | null | true_ | false_ | number | string | array | object
  deriving DecidableEq

@[local grind] def kind : Json → Kind
  | .null => .null
  | .bool b => if b then .true_ else .false_
  | .number x => if x.isFinite then .number else .null
  | .string _ => .string
  | .array _ => .array
  | .object _ => .object

/-- The kind of the value a text begins with. -/
def kindOf (c : Char) : Option Kind :=
  if c = 'n' then some .null
  else if c = 't' then some .true_
  else if c = 'f' then some .false_
  else if c = '"' then some .string
  else if c = '[' then some .array
  else if c = '\x7b' then some .object
  else if isNumeric c then some .number
  else none

theorem kindOf_numeric {c : Char} (h : isNumeric c) : kindOf c = some .number := by
  unfold kindOf
  repeat' split
  all_goals first
    | rfl
    | contradiction
    | (subst_vars; exact absurd h (by decide))

theorem kind_written (v : Json) : kind (written v) = kind v := by
  cases v with
  | number x =>
    unfold written kind
    cases hx : x.isFinite <;> simp [hx]
  | null | bool _ | string _ | array _ | object _ => rfl

theorem exists_string {v : Json} (h : kind v = .string) : ∃ s, v = .string s := by
  cases v with
  | string s => exact ⟨s, rfl⟩
  | bool b => cases b <;> cases h
  | number x => simp only [kind] at h; split at h <;> cases h
  | null | array _ | object _ => cases h

theorem exists_array {v : Json} (h : kind v = .array) : ∃ items, v = .array items := by
  cases v with
  | array items => exact ⟨items, rfl⟩
  | bool b => cases b <;> cases h
  | number x => simp only [kind] at h; split at h <;> cases h
  | null | string _ | object _ => cases h

theorem exists_object {v : Json} (h : kind v = .object) : ∃ fields, v = .object fields := by
  cases v with
  | object fields => exact ⟨fields, rfl⟩
  | bool b => cases b <;> cases h
  | number x => simp only [kind] at h; split at h <;> cases h
  | null | string _ | array _ => cases h

theorem exists_number {v : Json} (h : kind v = .number) :
    ∃ x : Number, v = .number x ∧ x.isFinite := by
  cases v with
  | number x =>
    cases hx : x.isFinite with
    | true => exact ⟨x, rfl, hx⟩
    | false => simp [kind, hx] at h
  | bool b => cases b <;> cases h
  | null | string _ | array _ | object _ => cases h

section
variable [Runtime]

/-- The values of a kind without contents have one text, and one form. -/
theorem write_literal {v w : Json} (hkind : kind v = kind w)
    (hv : kind v = .null ∨ kind v = .true_ ∨ kind v = .false_) :
    write v = write w ∧ written v = written w := by
  have hform : ∀ u : Json, (kind u = .null → write u = "null".toList ∧ written u = .null) ∧
      (kind u = .true_ → write u = "true".toList ∧ written u = .bool true) ∧
      (kind u = .false_ → write u = "false".toList ∧ written u = .bool false) := by
    intro u
    cases u with
    | bool b => cases b <;> simp [kind, write, written]
    | number x => cases hx : x.isFinite <;> simp [kind, write, written, numberText, hx]
    | null | string _ | array _ | object _ => simp [kind, write, written]
  obtain ⟨hnull, htrue, hfalse⟩ := hform v
  obtain ⟨hnull', htrue', hfalse'⟩ := hform w
  rcases hv with h | h | h
  · obtain ⟨ht, hf⟩ := hnull h
    obtain ⟨ht', hf'⟩ := hnull' (hkind ▸ h)
    exact ⟨ht.trans ht'.symm, hf.trans hf'.symm⟩
  · obtain ⟨ht, hf⟩ := htrue h
    obtain ⟨ht', hf'⟩ := htrue' (hkind ▸ h)
    exact ⟨ht.trans ht'.symm, hf.trans hf'.symm⟩
  · obtain ⟨ht, hf⟩ := hfalse h
    obtain ⟨ht', hf'⟩ := hfalse' (hkind ▸ h)
    exact ⟨ht.trans ht'.symm, hf.trans hf'.symm⟩

variable [NumberText]

theorem write_numeric {x : Number} (hx : x.isFinite) : ∀ c ∈ write (.number x), isNumeric c := by
  obtain ⟨c, cs, heq, hall⟩ := NumberText.numeric x hx
  rw [write, numberText, if_pos hx, heq]
  exact hall

theorem write_head (v : Json) : ∃ c cs, write v = c :: cs ∧ kindOf c = some (kind v) := by
  cases v with
  | bool b => cases b <;> exact ⟨_, _, rfl, rfl⟩
  | number x =>
    cases hx : x.isFinite with
    | true =>
      obtain ⟨c, cs, heq, hall⟩ := NumberText.numeric x hx
      refine ⟨c, cs, ?_, ?_⟩
      · rw [write, numberText, if_pos hx, heq]
      · rw [kindOf_numeric (hall c List.mem_cons_self), kind, if_pos hx]
    | false =>
      refine ⟨'n', ['u', 'l', 'l'], ?_, ?_⟩
      · rw [write, numberText, hx]
        rfl
      · rw [kind, hx]
        rfl
  | null | string _ | array _ | object _ => exact ⟨_, _, rfl, rfl⟩

theorem opens_write (v : Json) : Opens (write v) := by
  obtain ⟨c, cs, heq, hkind⟩ := write_head v
  refine ⟨c, cs, heq, ?_, ?_, ?_⟩ <;>
    · rintro rfl
      exact absurd hkind (by simp [kindOf, isNumeric, Char.isDigit])

theorem kind_eq {v w : Json} {r r' : List Char} (h : write v ++ r = write w ++ r') :
    kind v = kind w := by
  obtain ⟨c, cs, heq, hkind⟩ := write_head v
  obtain ⟨d, ds, heq', hkind'⟩ := write_head w
  rw [heq, heq'] at h
  obtain rfl := (List.cons.inj h).1
  exact Option.some.inj (hkind.symm.trans hkind')

omit [NumberText] in
theorem cancel_member {e e' : String × Json} (h : Cancels (write e.2) (write e'.2)) :
    Cancels (memberText e) (memberText e') := by
  intro r r' hr hr' heq
  simp only [memberText, List.append_assoc, List.cons_append] at heq ⊢
  obtain ⟨hk, hrest⟩ := cancel_quote heq
  obtain ⟨hv, hr⟩ := h _ _ hr hr' (List.cons.inj hrest).2
  exact ⟨by rw [hk, hv], hr⟩

omit [NumberText] in
theorem opens_member (e : String × Json) : Opens (memberText e) :=
  ⟨'"', _, rfl, by decide, by decide, by decide⟩

/-! ### The texts of values cancel -/

theorem cancel_array {items items' : List Json}
    (hcancel : ∀ a ∈ items, ∀ b ∈ items', Cancels (write a) (write b)) {r r' : List Char}
    (h : write (.array items) ++ r = write (.array items') ++ r') :
    items.map write = items'.map write ∧ r = r' := by
  simp only [write, writeItems_eq, List.cons_append, List.append_assoc, List.cons.injEq, true_and,
    List.nil_append] at h
  refine cancel_separated (.inl rfl) ?_ ?_ ?_ h
  · intro t ht u hu
    obtain ⟨a, ha, rfl⟩ := List.mem_map.mp ht
    obtain ⟨b, hb, rfl⟩ := List.mem_map.mp hu
    exact hcancel a ha b hb
  · intro t ht
    obtain ⟨a, -, rfl⟩ := List.mem_map.mp ht
    exact opens_write a
  · intro u hu
    obtain ⟨b, -, rfl⟩ := List.mem_map.mp hu
    exact opens_write b

omit [NumberText] in
theorem cancel_object {fields fields' : List (String × Json)}
    (hcancel : ∀ e ∈ fields, ∀ e' ∈ fields', Cancels (write e.2) (write e'.2)) {r r' : List Char}
    (h : write (.object fields) ++ r = write (.object fields') ++ r') :
    (distinct [] fields).map memberText = (distinct [] fields').map memberText ∧ r = r' := by
  simp only [write, writeMembers_eq, List.cons_append, List.append_assoc, List.cons.injEq,
    true_and, List.nil_append] at h
  refine cancel_separated (.inr rfl) ?_ ?_ ?_ h
  · intro t ht u hu
    obtain ⟨e, he, rfl⟩ := List.mem_map.mp ht
    obtain ⟨e', he', rfl⟩ := List.mem_map.mp hu
    exact cancel_member (hcancel e (mem_of_mem_distinct he) e' (mem_of_mem_distinct he'))
  · intro t ht
    obtain ⟨e, -, rfl⟩ := List.mem_map.mp ht
    exact opens_member e
  · intro u hu
    obtain ⟨e, -, rfl⟩ := List.mem_map.mp hu
    exact opens_member e

omit [Runtime] [NumberText] in
theorem sizeOf_item {a : Json} {items : List Json} (h : a ∈ items) :
    sizeOf a < sizeOf (Json.array items) := by
  have hlt := List.sizeOf_lt_of_mem h
  simp only [Json.array.sizeOf_spec]
  omega

omit [Runtime] [NumberText] in
theorem sizeOf_member {e : String × Json} {fields : List (String × Json)} (h : e ∈ fields) :
    sizeOf e.2 < sizeOf (Json.object fields) := by
  have hlt := List.sizeOf_lt_of_mem h
  obtain ⟨k, u⟩ := e
  simp only [Json.object.sizeOf_spec, Prod.mk.sizeOf_spec] at hlt ⊢
  omega

theorem write_cancels (v w : Json) : Cancels (write v) (write w) := by
  intro r r' hr hr' h
  have hkind := kind_eq h
  match v with
  | .null | .bool true | .bool false =>
    have heq := (write_literal hkind (by simp [kind])).1
    rw [heq] at h ⊢
    exact ⟨rfl, List.append_cancel_left h⟩
  | .number x =>
    cases hx : x.isFinite with
    | true =>
      obtain ⟨y, rfl, hy⟩ := exists_number (hkind.symm.trans (by rw [kind, if_pos hx]))
      exact cancel_numeric (write_numeric hx) (write_numeric hy) r r' hr hr' h
    | false =>
      have heq := (write_literal hkind (by simp [kind, hx])).1
      rw [heq] at h ⊢
      exact ⟨rfl, List.append_cancel_left h⟩
  | .string s =>
    obtain ⟨t, rfl⟩ := exists_string hkind.symm
    obtain ⟨rfl, hr⟩ := cancel_quote h
    exact ⟨rfl, hr⟩
  | .array items =>
    obtain ⟨items', rfl⟩ := exists_array hkind.symm
    obtain ⟨heq, hr⟩ := cancel_array (fun a ha b _ => write_cancels a b) h
    simp only [write, writeItems_eq, heq, hr, and_self]
  | .object fields =>
    obtain ⟨fields', rfl⟩ := exists_object hkind.symm
    obtain ⟨heq, hr⟩ := cancel_object (fun e he e' _ => write_cancels e.2 e'.2) h
    simp only [write, writeMembers_eq, heq, hr, and_self]
termination_by sizeOf v
decreasing_by
  · exact sizeOf_item ha
  · exact sizeOf_member he

/-- Two values have one text exactly when they have one written form. -/
theorem write_eq_iff (v w : Json) : write v = write w ↔ written v = written w := by
  have hkinds : (write v = write w ∨ written v = written w) → kind v = kind w := by
    rintro (h | h)
    · exact kind_eq (congrArg (· ++ []) h)
    · rw [← kind_written v, ← kind_written w, h]
  match v with
  | .null | .bool true | .bool false =>
    refine ⟨fun h => ?_, fun h => ?_⟩
    · exact (write_literal (hkinds (.inl h)) (by simp [kind])).2
    · exact (write_literal (hkinds (.inr h)) (by simp [kind])).1
  | .number x =>
    cases hx : x.isFinite with
    | true =>
      have hfin : kind (.number x) = .number := by rw [kind, if_pos hx]
      refine ⟨fun h => ?_, fun h => ?_⟩
      · obtain ⟨y, rfl, hy⟩ := exists_number ((hkinds (.inl h)).symm.trans hfin)
        rw [write, write, numberText, numberText, if_pos hx, if_pos hy] at h
        rw [NumberText.injective x y hx hy (String.toList_inj.mp h)]
      · obtain ⟨y, rfl, hy⟩ := exists_number ((hkinds (.inr h)).symm.trans hfin)
        rw [written, written, if_pos hx, if_pos hy] at h
        rw [h]
    | false =>
      refine ⟨fun h => ?_, fun h => ?_⟩
      · exact (write_literal (hkinds (.inl h)) (by simp [kind, hx])).2
      · exact (write_literal (hkinds (.inr h)) (by simp [kind, hx])).1
  | .string s =>
    refine ⟨fun h => ?_, fun h => ?_⟩
    · obtain ⟨t, rfl⟩ := exists_string (hkinds (.inl h)).symm
      rw [(cancel_quote (congrArg (· ++ []) h)).1]
    · obtain ⟨t, rfl⟩ := exists_string (hkinds (.inr h)).symm
      rw [Json.string.inj h]
  | .array items =>
    refine ⟨fun h => ?_, fun h => ?_⟩
    · obtain ⟨items', rfl⟩ := exists_array (hkinds (.inl h)).symm
      have hmap := (cancel_array (fun a _ b _ => write_cancels a b) (congrArg (· ++ []) h)).1
      rw [written, written, writtenItems_eq, writtenItems_eq]
      rw [map_eq_map_of (fun a ha b _ => (write_eq_iff a b).mp) hmap]
    · obtain ⟨items', rfl⟩ := exists_array (hkinds (.inr h)).symm
      rw [written, written, writtenItems_eq, writtenItems_eq] at h
      rw [write, write, writeItems_eq, writeItems_eq]
      rw [map_eq_map_of (fun a ha b _ => (write_eq_iff a b).mpr) (Json.array.inj h)]
  | .object fields =>
    refine ⟨fun h => ?_, fun h => ?_⟩
    · obtain ⟨fields', rfl⟩ := exists_object (hkinds (.inl h)).symm
      have hmap := (cancel_object (fun e _ e' _ => write_cancels e.2 e'.2)
        (congrArg (· ++ []) h)).1
      rw [written, written, writtenMembers_eq, writtenMembers_eq]
      rw [map_eq_map_of (fun e he e' _ heq => ?_) hmap]
      obtain ⟨hk, hv⟩ := cancel_quote heq
      rw [hk, (write_eq_iff e.2 e'.2).mp (List.cons.inj hv).2]
    · obtain ⟨fields', rfl⟩ := exists_object (hkinds (.inr h)).symm
      rw [written, written, writtenMembers_eq, writtenMembers_eq] at h
      rw [write, write, writeMembers_eq, writeMembers_eq]
      rw [map_eq_map_of (fun e he e' _ heq => ?_) (Json.object.inj h)]
      obtain ⟨hk, hv⟩ := Prod.mk.inj heq
      rw [memberText, memberText, hk, (write_eq_iff e.2 e'.2).mpr hv]
termination_by sizeOf v
decreasing_by
  all_goals
    first
    | exact sizeOf_item ha
    | exact sizeOf_member (mem_of_mem_distinct he)

theorem stringify_eq_iff (v w : Json) : stringify v = stringify w ↔ written v = written w := by
  rw [← write_eq_iff]
  exact ⟨fun h => String.ofList_injective h, fun h => congrArg String.ofList h⟩

/-! ## Parsers -/

/-- `JSON.parse` reads back what `JSON.stringify` writes. -/
def Reads (parse : String → Option Json) : Prop := ∀ v, parse (stringify v) = some (written v)

open Classical in
/-- A parser of texts that were written. -/
noncomputable def readBack (s : String) : Option Json :=
  if h : ∃ v, stringify v = s then some (written h.choose) else none

theorem reads_readBack : Reads readBack := by
  intro v
  have h : ∃ w, stringify w = stringify v := ⟨v, rfl⟩
  rw [readBack, dif_pos h, (stringify_eq_iff _ _).mp h.choose_spec]

end

end Json

/-! ## A runtime with texts for all numbers -/

theorem digitsToNat_snoc (cs : List Char) (c : Char) :
    digitsToNat (.ofList (cs ++ [c])) =
      10 * digitsToNat (.ofList cs) + (c.toNat - '0'.toNat) := by
  simp [digitsToNat]

theorem digitsToNat_toDigits (n : Nat) : digitsToNat (.ofList (Nat.toDigits 10 n)) = n := by
  induction n using Nat.strongRecOn with
  | ind n ih =>
      have hdigit : ∀ d < 10, d.digitChar.toNat - '0'.toNat = d := by decide
      rw [Nat.toDigits_eq_if (by decide)]
      split
      case isTrue h =>
        rw [← List.nil_append [n.digitChar], digitsToNat_snoc, hdigit n h]
        exact Nat.zero_add n
      case isFalse h =>
        rw [digitsToNat_snoc, ih (n / 10) (by omega), hdigit (n % 10) (Nat.mod_lt _ (by decide))]
        omega

theorem repr_injective {m n : Nat} (h : m.repr = n.repr) : m = n := by
  have hlist := congrArg String.toList h
  rw [Nat.toList_repr, Nat.toList_repr] at hlist
  rw [← digitsToNat_toDigits m, ← digitsToNat_toDigits n, hlist]

theorem isDigit_of_mem_repr {n : Nat} {c : Char} (h : c ∈ n.repr.toList) : c.isDigit := by
  rw [Nat.toList_repr] at h
  exact Nat.isDigit_of_mem_toDigits (by decide) (by decide) h

/-- A number that is no safe natural: its odd part and its exponent, as one natural. -/
def scientific : Number → String
  | .finite (.ofOdd n k _) => "0e" ++ (Encodable.encode (n, k)).repr
  | _ => "0e"

/-- A runtime that writes naturals as they are and tells all finite numbers apart. -/
@[reducible] def Runtime.exact : Runtime where
  toLowerCase := asciiLower
  numberToString x :=
    x.safeNat?.elim (scientific x) fun n => if x = .ofNat n then n.repr else scientific x
  stringToNumber := Runtime.ascii.stringToNumber
  toLowerCase_ascii := Runtime.ascii.toLowerCase_ascii
  numberToString_nat n hn := by
    have h : Number.safeNat? n = some n := by
      rw [Number.safeNat?_ofNat, if_pos hn]
    simp only [h, Option.elim_some, if_true]
  stringToNumber_digits := Runtime.ascii.stringToNumber_digits

theorem exact_cases (x : Number) :
    (∃ n : Nat, x = .ofNat n ∧ @numberToString Runtime.exact x = n.repr) ∨
      @numberToString Runtime.exact x = scientific x := by
  change (∃ n : Nat, x = .ofNat n ∧ x.safeNat?.elim (scientific x)
      (fun n => if x = .ofNat n then n.repr else scientific x) = n.repr) ∨
    x.safeNat?.elim (scientific x) (fun n => if x = .ofNat n then n.repr else scientific x) =
      scientific x
  cases x.safeNat? with
  | none => exact .inr rfl
  | some n =>
    rcases Decidable.em (x = .ofNat n) with heq | hne
    · exact .inl ⟨n, heq, if_pos heq⟩
    · exact .inr (if_neg hne)

theorem scientific_ne_repr (x : Number) (n : Nat) : scientific x ≠ n.repr := by
  intro h
  have hmem : 'e' ∈ (scientific x).toList := by
    unfold scientific
    split <;> simp
  rw [h] at hmem
  exact absurd (isDigit_of_mem_repr hmem) (by decide)

theorem scientific_injective {x y : Number} (hx : x.isFinite) (hy : y.isFinite)
    (h : scientific x = scientific y) : x = y := by
  have hne : ∀ n : Nat, "0e" ++ n.repr ≠ "0e" := by
    intro n heq
    have hlist := congrArg String.toList heq
    simp only [String.toList_append] at hlist
    have hnil := List.append_cancel_left (hlist.trans (List.append_nil _).symm)
    exact Nat.repr_ne_empty (String.toList_inj.mp hnil)
  match x, y, hx, hy with
  | .finite .zero, .finite .zero, _, _ => rfl
  | .finite .zero, .finite (.ofOdd n k _), _, _ => exact absurd h.symm (hne _)
  | .finite (.ofOdd n k _), .finite .zero, _, _ => exact absurd h (hne _)
  | .finite (.ofOdd n k _), .finite (.ofOdd m l _), _, _ =>
    have hlist := congrArg String.toList h
    simp only [scientific, String.toList_append] at hlist
    have hrepr := String.toList_inj.mp (List.append_cancel_left hlist)
    have hpair := Encodable.encode_injective (repr_injective hrepr)
    obtain ⟨rfl, rfl⟩ := Prod.mk.inj hpair
    rfl

theorem numberText_exact : @NumberText Runtime.exact := by
  refine @NumberText.mk Runtime.exact ?_ ?_
  · intro x hx
    have htext : ∀ t : String, t ≠ "" → (∀ c ∈ t.toList, isNumeric c) →
        ∃ c cs, t.toList = c :: cs ∧ ∀ d ∈ c :: cs, isNumeric d := by
      intro t hne hall
      cases ht : t.toList with
      | nil => exact absurd (String.toList_inj.mp ht) hne
      | cons c cs => exact ⟨c, cs, rfl, ht ▸ hall⟩
    have hdigits : ∀ n : Nat, ∀ c ∈ n.repr.toList, isNumeric c := by
      intro n c hc
      simp [isNumeric, isDigit_of_mem_repr hc]
    have hmark : ∀ c ∈ "0e".toList, isNumeric c := by
      intro c hc
      have hlist : "0e".toList = ['0', 'e'] := rfl
      rw [hlist] at hc
      rcases List.mem_cons.mp hc with rfl | hc
      · rfl
      · rw [List.mem_singleton.mp hc]
        rfl
    rcases exact_cases x with ⟨n, -, heq⟩ | heq
    · rw [heq]
      exact htext _ Nat.repr_ne_empty (hdigits n)
    · rw [heq]
      unfold scientific
      split
      · refine htext _ (by intro h; simpa using congrArg String.toList h) ?_
        intro c hc
        rw [String.toList_append] at hc
        rcases List.mem_append.mp hc with hc | hc
        · exact hmark c hc
        · exact hdigits _ c hc
      · exact htext _ (by decide) hmark
  · intro x y hx hy h
    rcases exact_cases x with ⟨m, rfl, hm⟩ | hm <;> rcases exact_cases y with ⟨n, rfl, hn⟩ | hn
    · rw [hm, hn] at h
      rw [repr_injective h]
    · rw [hm, hn] at h
      exact absurd h.symm (scientific_ne_repr y m)
    · rw [hm, hn] at h
      exact absurd h (scientific_ne_repr x n)
    · rw [hm, hn] at h
      exact scientific_injective hx hy h

end Js
