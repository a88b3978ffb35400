-- SUMMARY: MQTT topics: their levels, the topic filters of the broker, and the matching the connector does itself.
import TwinServer.Base.Text

/-!
# Topics

`mqttMatch` of `src/connectors/mqtt.ts`, which decides whether a subscription handles
a message, next to the matching of filters by the broker, which decides whether a
user may publish or read a topic.
-/

open Js

namespace Mqtt

/-- `s.split(sep)`. -/
@[local grind] def splitChars (sep : Char) : List Char → List (List Char)
  | [] => [[]]
  | c :: cs =>
    if c = sep then [] :: splitChars sep cs
    else
      match splitChars sep cs with
      | level :: levels => (c :: level) :: levels
      | [] => [[c]]

def levels (topic : String) : List String := (splitChars '/' topic.toList).map .ofList

/-! ## The connector -/

/-- The rest of a pattern against levels past the end of the topic. -/
def matchPast : List String → Bool
  | [] => false
  | p :: ps => p == "#" || (p == "+" && matchPast ps)

/-- The loop of `mqttMatch`, level by level. -/
@[local grind] def matchLevels : List String → List String → Bool
  | [], ts => ts.isEmpty
  | p :: ps, [] => matchPast (p :: ps)
  | p :: ps, t :: ts => p == "#" || ((p == "+" || p == t) && matchLevels ps ts)

def mqttMatch (pattern topic : String) : Bool := matchLevels (levels pattern) (levels topic)

/-! ## The broker -/

/-- The levels of a topic against those of a filter, as the broker matches them. -/
@[local grind] def filterLevels : List String → List String → Bool
  | [], ts => ts.isEmpty
  | ["#"], _ => true
  | _ :: _, [] => false
  | p :: ps, t :: ts => (p == "+" || p == t) && filterLevels ps ts

/-- Wildcards at the first level do not match the broker's own topics. -/
def filterMatches (filter topic : String) : Bool :=
  filterLevels (levels filter) (levels topic) &&
    !(startsWith topic "$" && (startsWith filter "#" || startsWith filter "+"))

/-! ## Levels -/

theorem splitChars_ne_nil (sep : Char) (cs : List Char) : splitChars sep cs ≠ [] := by
  cases cs with
  | nil => simp [splitChars]
  | cons c cs =>
      simp only [splitChars]
      split
      · simp
      · split <;> simp

theorem splitChars_append (sep : Char) (a b : List Char) :
    splitChars sep (a ++ sep :: b) = splitChars sep a ++ splitChars sep b := by
  induction a with
  | nil => simp [splitChars]
  | cons c cs ih =>
      simp only [List.cons_append, splitChars]
      split
      · rw [ih, List.cons_append]
      · rw [ih]
        cases hcs : splitChars sep cs with
        | nil => exact absurd hcs (splitChars_ne_nil sep cs)
        | cons level levels => simp

theorem splitChars_of_not_mem {sep : Char} {cs : List Char} (h : sep ∉ cs) :
    splitChars sep cs = [cs] := by
  induction cs with
  | nil => rfl
  | cons c cs ih =>
      simp only [List.mem_cons, not_or] at h
      have hne : ¬ c = sep := fun heq => h.1 heq.symm
      simp only [splitChars, hne, if_false, ih h.2]

theorem levels_append (a b : String) : levels (a ++ "/" ++ b) = levels a ++ levels b := by
  have hchars : (a ++ "/" ++ b).toList = a.toList ++ '/' :: b.toList := by simp
  simp only [levels, hchars, splitChars_append, List.map_append]

theorem levels_of_not_mem {s : String} (h : '/' ∉ s.toList) : levels s = [s] := by
  simp [levels, splitChars_of_not_mem h]

theorem levels_ofList (cs : List Char) : levels (.ofList cs) = (splitChars '/' cs).map .ofList := by
  rw [levels, String.toList_ofList]

theorem mem_of_filterLevels {ps ts : List String} (h : filterLevels ps ts)
    (hlast : ps.getLast? ≠ some "#") {level : String} (hlevel : level ∈ ps) (hplus : level ≠ "+") :
    level ∈ ts := by
  fun_induction filterLevels ps ts with
  | case1 => cases hlevel
  | case2 => simp at hlast
  | case3 => cases h
  | case4 p ps t ts hne ih =>
    simp only [Bool.and_eq_true, Bool.or_eq_true, beq_iff_eq] at h
    rcases List.mem_cons.mp hlevel with rfl | hlevel
    · exact List.mem_cons.mpr (.inl (h.1.resolve_left hplus))
    · refine List.mem_cons_of_mem _ (ih h.2 ?_ hlevel)
      cases ps with
      | nil => simp
      | cons q qs => simpa using hlast

end Mqtt
