-- SUMMARY: Comma-separated values as RFC 4180 has them: a reader of records, and the texts it reads back.
import Mathlib.Data.List.Forall2

/-!
# Comma-separated values

A file is a sequence of records, each closed by a line break, which the last one may lack. The fields of a record
are separated by commas. A field may stand between quotes, and then it may hold any character, a quote twice.
-/

namespace Csv

/-! ## The reader -/

/-- Where in a file the reader is. -/
inductive Mode where
  /-- Before a record. -/
  | record
  /-- Before a field. -/
  | field
  /-- In a field without quotes. -/
  | plain
  | quoted
  /-- After a quote in a quoted field, which may be its end. -/
  | quote
  /-- Inside a line break. -/
  | line

/-- The records of the rest of a file; `field` was read of the field, and `fields` of the record. -/
@[local grind]
def parseFrom : Mode → (field : List Char) → (fields : List String) → List Char → Option (List (List String))
  | .record, _, _, [] => some []
  | .quoted, _, _, [] => none
  | .line, _, _, [] => none
  | _, field, fields, [] => some [fields ++ [.ofList field]]
  | .quoted, field, fields, c :: cs =>
    if c = '"' then parseFrom .quote field fields cs else parseFrom .quoted (field ++ [c]) fields cs
  | .line, field, fields, c :: cs =>
    if c = '\n' then (parseFrom .record [] [] cs).map ((fields ++ [.ofList field]) :: ·) else none
  | .plain, field, fields, c :: cs =>
    if c = ',' then parseFrom .field [] (fields ++ [.ofList field]) cs
    else if c = '\r' then parseFrom .line field fields cs
    else if c = '"' ∨ c = '\n' then none
    else parseFrom .plain (field ++ [c]) fields cs
  | .quote, field, fields, c :: cs =>
    if c = ',' then parseFrom .field [] (fields ++ [.ofList field]) cs
    else if c = '\r' then parseFrom .line field fields cs
    else if c = '"' then parseFrom .quoted (field ++ [c]) fields cs
    else none
  | _, field, fields, c :: cs =>
    if c = ',' then parseFrom .field [] (fields ++ [.ofList field]) cs
    else if c = '\r' then parseFrom .line field fields cs
    else if c = '"' then parseFrom .quoted field fields cs
    else if c = '\n' then none
    else parseFrom .plain (field ++ [c]) fields cs

/-- The records of a file. -/
def parse (s : String) : Option (List (List String)) := parseFrom .record [] [] s.toList

example : parse "a,\"b\"\"\r\n\"\r\n,\r\n" = some [["a", "b\"\r\n"], ["", ""]] := by decide

/-! ## Fields -/

/-- A character that may stand in a field without quotes. -/
def isText (c : Char) : Bool := c != ',' && c != '"' && c != '\r' && c != '\n'

/-- The characters that need quotes. -/
def specials : List Char := [',', '"', '\r', '\n']

theorem isText_of_not_mem {c : Char} (h : c ∉ specials) : isText c := by
  simpa [isText, specials, and_assoc] using h

/-- A quote is doubled inside of quotes. -/
def escape (c : Char) : List Char := if c = '"' then ['"', '"'] else [c]

/-- A text stands for a field: as it is, or between quotes. -/
inductive Field : List Char → String → Prop
  | plain {cs : List Char} (h : cs.all isText) : Field cs (.ofList cs)
  | quoted (s : String) : Field ('"' :: (s.toList.flatMap escape ++ ['"'])) s

/-- A text of characters none of which is special stands for itself. -/
theorem field_of_all {p : Char → Bool} (hp : specials.all fun c => !p c) {s : String} (h : s.toList.all p) :
    Field s.toList s := by
  have hfield : Field s.toList (.ofList s.toList) := by
    refine .plain (List.all_eq_true.mpr fun c hc => isText_of_not_mem fun hspecial => ?_)
    have hnot : p c = false := by simpa using List.all_eq_true.mp hp c hspecial
    have hyes : p c = true := List.all_eq_true.mp h c hc
    rw [hnot] at hyes
    cases hyes
  rwa [String.ofList_toList] at hfield

/-- What ends a field. -/
def Ends (cs : List Char) : Prop := ∃ cs', cs = ',' :: cs' ∨ cs = '\r' :: cs'

/-- The reader at the end of a field. -/
def finish (field : String) (fields : List String) : List Char → Option (List (List String))
  | [] => some [fields ++ [field]]
  | c :: cs =>
    if c = ',' then parseFrom .field [] (fields ++ [field]) cs
    else if c = '\r' then parseFrom .line field.toList fields cs
    else none

section
variable {fields : List String}

theorem parseFrom_plain {cs rest : List Char} (hcs : cs.all isText) (hrest : Ends rest) (field : List Char) :
    parseFrom .plain field fields (cs ++ rest) = finish (.ofList (field ++ cs)) fields rest := by
  induction cs generalizing field with
  | nil =>
    obtain ⟨rest', rfl | rfl⟩ := hrest <;> simp [parseFrom, finish]
  | cons c cs ih =>
    obtain ⟨hc, hcs⟩ := Bool.and_eq_true_iff.mp ((List.all_cons).symm.trans hcs)
    simp only [isText, Bool.and_eq_true, bne_iff_ne] at hc
    obtain ⟨⟨⟨hcomma, hquote⟩, hreturn⟩, hline⟩ := hc
    rw [List.cons_append, parseFrom, if_neg hcomma, if_neg hreturn, if_neg (by simp [hquote, hline]), ih hcs,
      List.append_assoc, List.singleton_append]

theorem parseFrom_quoted (cs : List Char) {rest : List Char} (hrest : Ends rest) (field : List Char) :
    parseFrom .quoted field fields (cs.flatMap escape ++ '"' :: rest) = finish (.ofList (field ++ cs)) fields rest := by
  induction cs generalizing field with
  | nil =>
    obtain ⟨rest', rfl | rfl⟩ := hrest <;> simp [parseFrom, finish]
  | cons c cs ih =>
    rw [List.flatMap_cons, List.append_assoc]
    by_cases hc : c = '"'
    · subst hc
      simp [escape, parseFrom, ih]
    · simp [escape, hc, parseFrom, ih]

/-- A field is read to its end. -/
theorem parseFrom_field {text : List Char} {value : String} (h : Field text value) {rest : List Char}
    (hrest : Ends rest) : parseFrom .field [] fields (text ++ rest) = finish value fields rest := by
  cases h with
  | plain hcs =>
    cases text with
    | nil =>
      obtain ⟨rest', rfl | rfl⟩ := hrest <;> simp [parseFrom, finish]
    | cons c cs =>
      have htail := hcs
      simp only [List.all_cons, isText, Bool.and_eq_true, bne_iff_ne] at hcs
      obtain ⟨⟨⟨⟨hcomma, hquote⟩, hreturn⟩, hline⟩, -⟩ := hcs
      have hcs : cs.all isText := (Bool.and_eq_true_iff.mp ((List.all_cons).symm.trans htail)).2
      rw [List.cons_append, parseFrom, if_neg hcomma, if_neg hreturn, if_neg hquote, if_neg hline, List.nil_append,
        parseFrom_plain hcs hrest]
      rfl
      all_goals simp
  | quoted =>
    rw [List.cons_append, List.append_assoc, List.singleton_append]
    have hopen (cs : List Char) : parseFrom .field [] fields ('"' :: cs) = parseFrom .quoted [] fields cs := by
      simp [parseFrom]
    rw [hopen, parseFrom_quoted value.toList hrest, List.nil_append, String.ofList_toList]

end

/-! ## Records -/

/-- The texts of fields, with commas between them. -/
@[local grind] def joined : List (List Char) → List Char
  | [] => []
  | [text] => text
  | text :: text' :: texts => text ++ ',' :: joined (text' :: texts)

/-- The texts stand for the fields of a record, of which there is one. -/
def IsRow (texts : List (List Char)) (values : List String) : Prop := texts ≠ [] ∧ List.Forall₂ Field texts values

theorem parseFrom_row {texts : List (List Char)} {values : List String} (h : IsRow texts values) (fields : List String)
    (cs : List Char) : parseFrom .field [] fields (joined texts ++ '\r' :: '\n' :: cs) =
      (parseFrom .record [] [] cs).map ((fields ++ values) :: ·) := by
  obtain ⟨hne, hfields⟩ := h
  induction hfields generalizing fields with
  | nil => exact absurd rfl hne
  | @cons text value texts values hfield hrest ih =>
    cases texts with
    | nil =>
      cases hrest
      rw [joined, parseFrom_field hfield ⟨_, .inr rfl⟩]
      simp [finish, parseFrom]
    | cons text' texts =>
      have hcomma : joined (text :: text' :: texts) ++ '\r' :: '\n' :: cs =
          text ++ ',' :: (joined (text' :: texts) ++ '\r' :: '\n' :: cs) := by
        rw [joined, List.append_assoc, List.cons_append]
      rw [hcomma, parseFrom_field hfield ⟨_, .inl rfl⟩]
      have hfields : fields ++ [value] ++ values = fields ++ value :: values := by
        rw [List.append_assoc, List.singleton_append]
      rw [finish, if_pos rfl, ih _ (List.cons_ne_nil _ _), hfields]

/-- Before a record a field begins, unless the file ends. -/
theorem parseFrom_record {cs : List Char} (h : cs ≠ []) (field : List Char) (fields : List String) :
    parseFrom .record field fields cs = parseFrom .field field fields cs := by
  cases cs with
  | nil => exact absurd rfl h
  | cons c cs => simp [parseFrom]

/-- Texts with a separator between them and one after them are each followed by one. -/
theorem intercalate_append {sep : List Char} {texts : List (List Char)} (h : texts ≠ []) :
    sep.intercalate texts ++ sep = texts.flatMap (· ++ sep) := by
  induction texts with
  | nil => exact absurd rfl h
  | cons t texts ih =>
    cases texts with
    | nil => simp [List.intercalate]
    | cons t' texts =>
      rw [List.flatMap_cons, ← ih (List.cons_ne_nil _ _)]
      simp [List.intercalate]

/-- **Round trip.** Records that are written with a line break after each are read back. -/
theorem parseFrom_rows {rows : List (List (List Char))} {records : List (List String)}
    (h : List.Forall₂ IsRow rows records) :
    parseFrom .record [] [] (rows.flatMap fun texts => joined texts ++ ['\r', '\n']) = some records := by
  induction h with
  | nil => rfl
  | @cons texts values rows records hrow _ ih =>
    rw [List.flatMap_cons, List.append_assoc, parseFrom_record (by simp)]
    rw [List.cons_append, List.cons_append, List.nil_append, parseFrom_row hrow, ih]
    rfl

end Csv
