-- SUMMARY: Topic filters by the rules of MQTT, and when the matching of the connector decides by them.
import TwinServer.Base.Topic

/-!
# Topic filters

Every listener of the connector (`subscribeTo` and `subscribe` of `src/connectors/mqtt.ts`) sees the messages
of all subscriptions and keeps those that `mqttMatch` gives to its own filter. The rules it has to decide are
those of MQTT: `+` stands for one level, `#` for the parent level and all below it.
-/

open Js

namespace Mqtt

/-! ## The rules -/

/-- A wildcard is a whole level, and `#` is the last one. -/
def ValidLevels : List String → Prop
  | [] => True
  | level :: rest =>
    ('+' ∈ level.toList → level = "+") ∧ ('#' ∈ level.toList → level = "#" ∧ rest = []) ∧ ValidLevels rest

/-- A filter that a broker accepts. -/
structure TopicFilter where
  text : String
  valid : ValidLevels (levels text)

/-- The levels of a topic match those of a filter. -/
inductive Matches : List String → List String → Prop
  | nil : Matches [] []
  | multi (ts : List String) : Matches ["#"] ts
  | single {ps ts : List String} (t : String) (rest : Matches ps ts) : Matches ("+" :: ps) (t :: ts)
  | level {ps ts : List String} (l : String) (plain : l ≠ "+" ∧ l ≠ "#") (rest : Matches ps ts) :
      Matches (l :: ps) (l :: ts)

/-- The topic matches the filter up to one or more `+` that stand right before a `#`, and ends there. -/
def Overruns (ps ts : List String) : Prop :=
  ∃ (front : List String) (n : Nat), ps = front ++ (List.replicate (n + 1) "+" ++ ["#"]) ∧ Matches front ts

theorem ValidLevels.nil_of_multi {ps : List String} (h : ValidLevels ("#" :: ps)) : ps = [] :=
  (h.2.1 (by simp)).2

theorem ValidLevels.tail {p : String} {ps : List String} (h : ValidLevels (p :: ps)) : ValidLevels ps :=
  h.2.2

theorem matches_nil {ps : List String} : Matches ps [] ↔ ps = [] ∨ ps = ["#"] := by
  constructor
  · intro h
    cases h with
    | nil => exact .inl rfl
    | multi => exact .inr rfl
  · rintro (rfl | rfl)
    · exact .nil
    · exact .multi []

/-- At a level that is no `#`, filter and topic lose one level each. -/
theorem matches_cons {p t : String} {ps ts : List String} (hp : p ≠ "#") :
    Matches (p :: ps) (t :: ts) ↔ (p = "+" ∨ p = t) ∧ Matches ps ts := by
  constructor
  · intro h
    cases h with
    | multi => exact absurd rfl hp
    | single _ rest => exact ⟨.inl rfl, rest⟩
    | level _ _ rest => exact ⟨.inr rfl, rest⟩
  · rintro ⟨hlevel, hrest⟩
    by_cases hplus : p = "+"
    · subst hplus
      exact .single t hrest
    · obtain rfl := hlevel.resolve_left hplus
      exact .level p ⟨hplus, hp⟩ hrest

/-! ## The broker -/

/-- The broker matches by the rules. -/
theorem filterLevels_iff {ps : List String} (hps : ValidLevels ps) (ts : List String) :
    filterLevels ps ts ↔ Matches ps ts := by
  induction ps generalizing ts with
  | nil => cases ts with
    | nil => simp [filterLevels, matches_nil]
    | cons t ts =>
        have hnot : ¬ Matches [] (t :: ts) := fun h => by cases h
        simp [filterLevels, hnot]
  | cons p ps ih =>
      by_cases hp : p = "#"
      · subst hp
        obtain rfl := hps.nil_of_multi
        simp [filterLevels, Matches.multi ts]
      · cases ts with
        | nil => simp [filterLevels, matches_nil, hp]
        | cons t ts => simp [filterLevels, matches_cons, hp, ih hps.tail]

/-! ## The connector -/

/-- Past the end of the topic the loop passes every `+`, and a `#` ends it. -/
theorem matchPast_iff {ps : List String} (hps : ValidLevels ps) :
    matchPast ps ↔ ∃ n, ps = List.replicate n "+" ++ ["#"] := by
  induction ps with
  | nil => simp [matchPast]
  | cons p ps ih =>
      by_cases hp : p = "#"
      · subst hp
        obtain rfl := hps.nil_of_multi
        simp only [matchPast, beq_self_eq_true, Bool.true_or, true_iff]
        exact ⟨0, rfl⟩
      · have hpast : matchPast (p :: ps) ↔ p = "+" ∧ matchPast ps := by simp [matchPast, hp]
        rw [hpast, ih hps.tail]
        constructor
        · rintro ⟨rfl, n, rfl⟩
          exact ⟨n + 1, rfl⟩
        · rintro ⟨n, hn⟩
          cases n with
          | zero =>
              rw [List.replicate_zero, List.nil_append] at hn
              exact absurd (List.cons.inj hn).1 hp
          | succ n =>
              rw [List.replicate_succ, List.cons_append] at hn
              obtain ⟨rfl, rfl⟩ := List.cons.inj hn
              exact ⟨rfl, n, rfl⟩

theorem overruns_nil {ps : List String} (hps : ValidLevels ps) :
    Overruns ps [] ↔ ∃ n, ps = List.replicate (n + 1) "+" ++ ["#"] := by
  constructor
  · rintro ⟨front, n, rfl, hfront⟩
    cases matches_nil.mp hfront with
    | inl hnil => exact ⟨n, by rw [hnil, List.nil_append]⟩
    | inr hmulti =>
        -- a filter with a level after its "#" is not valid
        subst hmulti
        cases hps.nil_of_multi
  · rintro ⟨n, rfl⟩
    exact ⟨[], n, rfl, .nil⟩

theorem not_overruns_nil (ts : List String) : ¬ Overruns [] ts := by
  rintro ⟨front, n, hps, -⟩
  simp at hps

theorem overruns_cons {p t : String} {ps ts : List String} (hp : p ≠ "#") :
    Overruns (p :: ps) (t :: ts) ↔ (p = "+" ∨ p = t) ∧ Overruns ps ts := by
  constructor
  · rintro ⟨front, n, hps, hfront⟩
    cases front with
    | nil => cases hfront
    | cons q front =>
        rw [List.cons_append] at hps
        obtain ⟨rfl, rfl⟩ := List.cons.inj hps
        obtain ⟨hlevel, hrest⟩ := (matches_cons hp).mp hfront
        exact ⟨hlevel, front, n, rfl, hrest⟩
  · rintro ⟨hlevel, front, n, rfl, hfront⟩
    exact ⟨p :: front, n, rfl, (matches_cons hp).mpr ⟨hlevel, hfront⟩⟩

/-- A topic that ends before the last `+` does not match. -/
theorem Overruns.not_matches {ps ts : List String} (hps : ValidLevels ps) (h : Overruns ps ts) :
    ¬ Matches ps ts := by
  induction ts generalizing ps with
  | nil =>
      obtain ⟨n, rfl⟩ := (overruns_nil hps).mp h
      simp [matches_nil, List.replicate_succ]
  | cons t ts ih =>
      cases ps with
      | nil => exact absurd h (not_overruns_nil _)
      | cons p ps =>
          by_cases hp : p = "#"
          · subst hp
            obtain rfl := hps.nil_of_multi
            obtain ⟨front, n, hfront, -⟩ := h
            -- the only level would be both the "#" and a "+" before it
            have hlength := congrArg List.length hfront
            simp at hlength
            omega
          · rw [matches_cons hp]
            rintro ⟨-, hrest⟩
            exact ih hps.tail ((overruns_cons hp).mp h).2 hrest

/-- What the loop accepts: the matching topics, and those that end too early at levels "+". -/
theorem matchLevels_iff {ps : List String} (hps : ValidLevels ps) (ts : List String) :
    matchLevels ps ts ↔ Matches ps ts ∨ Overruns ps ts := by
  induction ps generalizing ts with
  | nil => cases ts with
    | nil => simp [matchLevels, matches_nil]
    | cons t ts =>
        have hnot : ¬ Matches [] (t :: ts) := fun h => by cases h
        simp [matchLevels, hnot, not_overruns_nil]
  | cons p ps ih =>
      by_cases hp : p = "#"
      · subst hp
        obtain rfl := hps.nil_of_multi
        cases ts <;> simp [matchLevels, matchPast, Matches.multi]
      · cases ts with
        | nil =>
            rw [matchLevels, matchPast_iff hps, overruns_nil hps, matches_nil]
            constructor
            · rintro ⟨n, hn⟩
              cases n with
              | zero => exact .inl (.inr hn)
              | succ n => exact .inr ⟨n, hn⟩
            · rintro ((hnil | hmulti) | ⟨n, hn⟩)
              · cases hnil
              · exact ⟨0, hmulti⟩
              · exact ⟨n + 1, hn⟩
        | cons t ts =>
            rw [matches_cons hp, overruns_cons hp, ← and_or_left, ← ih hps.tail]
            simp [matchLevels, hp]

namespace TopicFilter

/-- What the broker delivers for a filter reaches the handler of that filter. -/
theorem handled_of_delivered (filter : TopicFilter) {topic : String} (h : filterMatches filter.text topic) :
    mqttMatch filter.text topic := by
  rw [filterMatches, Bool.and_eq_true] at h
  exact (matchLevels_iff filter.valid _).mpr (.inl ((filterLevels_iff filter.valid _).mp h.1))

/-- The connector decides by the rules of MQTT just where the topic does not end before levels `+` that
stand between its last level and the `#` of the filter. -/
theorem mqttMatch_by_the_rules_iff (filter : TopicFilter) (topic : String) :
    (mqttMatch filter.text topic ↔ Matches (levels filter.text) (levels topic)) ↔
      ¬ Overruns (levels filter.text) (levels topic) := by
  rw [mqttMatch, matchLevels_iff filter.valid]
  constructor
  · intro hiff hover
    exact hover.not_matches filter.valid (hiff.mp (.inr hover))
  · intro hover
    exact or_iff_left hover

/-- The filter `a/+/#`. -/
def belowAnyChild : TopicFilter where
  text := "a/+/#"
  valid := by
    have hlevels : levels "a/+/#" = ["a", "+", "#"] := by decide
    rw [hlevels]
    simp [ValidLevels]

/-- The topic `a` has no level for the `+`, and is matched. -/
theorem short_topic_matched :
    ¬ ∀ (filter : TopicFilter) (topic : String), ¬ startsWith topic "$" →
      (mqttMatch filter.text topic ↔ Matches (levels filter.text) (levels topic)) := by
  intro h
  have hfilter : levels belowAnyChild.text = ["a"] ++ (List.replicate 1 "+" ++ ["#"]) := by decide
  have htopic : levels "a" = ["a"] := by decide
  have hover : Overruns (levels belowAnyChild.text) (levels "a") :=
    ⟨["a"], 0, hfilter, by rw [htopic]; exact .level "a" (by simp) .nil⟩
  have hmatch : mqttMatch belowAnyChild.text "a" := (matchLevels_iff belowAnyChild.valid _).mpr (.inr hover)
  exact hover.not_matches belowAnyChild.valid ((h belowAnyChild "a" (by decide)).mp hmatch)

end TopicFilter

end Mqtt
