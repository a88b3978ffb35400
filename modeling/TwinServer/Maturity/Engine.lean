-- SUMMARY: The evaluation of a Twin's maturity from evidence, with exact arithmetic, and the range and the growth of its score.
import Mathlib.Data.Rat.Floor
import Mathlib.Tactic.Linarith
import Mathlib.Tactic.Positivity
import TwinServer.Base.Errors
import TwinServer.Base.Records
import TwinServer.Base.Serial

/-!
# Maturity

`MaturityEngine.evaluate` of `src/maturity/engine.ts`. The numbers of a profile are rationals, as are the scores, which
are computed exactly; the rounding of doubles is not modelled. A score is missing where the source computes NaN.
-/

open Js Js.Json

namespace Maturity

/-! ## The model -/

inductive Value where
  | number (x : Number)
  | bool (b : Bool)

def Value.toJson : Value → Json
  | .number x => .number x
  | .bool b => .bool b

structure MaturityEvidence where
  indicator : String
  value : Value
  uri : Option String := none
  hash : Option String := none
  data : Option Json := none
  contentType : Option String := none
  fileName : Option String := none
  size : Option Nat := none

structure Indicator where
  code : String
  weight : ℚ
  threshold : ℚ
  minimum : Option ℚ := none
  requiredEvidence : Bool := false

structure Level where
  level : Number
  minimumScore : ℚ

structure MaturityProfile where
  version : Option Json := none
  indicators : List Indicator
  levels : List Level

structure StoreInput where
  data : String
  contentType : String
  fileName : String
  category : String
  twinId : String
  indicator : String

structure StoredObject where
  uri : String
  hash : String
  size : Nat
  contentType : Option String

structure IndicatorResult where
  code : String
  score : Option ℚ
  weight : ℚ
  passed : Bool
  evidence : Option MaturityEvidence

structure MaturityResult where
  profile : String
  profileId : String
  profileVersion : String
  level : Number
  score : Option Int
  indicators : List IndicatorResult
  inputIndicators : List (String × Value)
  evidenceHashes : List String
  evaluationHash : String

/-- `MaturityEngine.version`. -/
def engineVersion : String := "1.0.0"

/-- What the engine uses: the storage, the profiles, the order of keys and the digest. -/
structure Services where
  store : Option (StoreInput → Except Thrown StoredObject)
  getMaturityDefinition : String → Except Thrown MaturityProfile
  getProfileVersion : String → Except Thrown String
  localeCompare : String → String → Int
  sha256 : String → String

def maturityError (code message : String) (status : Nat) : AppError := { code, message, status, category := .MATURITY }

/-- The text is there and not empty. -/
def present (s : Option String) : Bool := s.any (· != "")

/-- The code units of a text. -/
def codeUnits (s : String) : List Nat := s.toList.flatMap fun c =>
  if c.toNat < 0x10000 then [c.toNat]
  else [0xD800 + (c.toNat - 0x10000) / 0x400, 0xDC00 + (c.toNat - 0x10000) % 0x400]

/-- `Array.prototype.sort` on texts. -/
def sortTexts (texts : List String) : List String := texts.mergeSort fun a b => decide (codeUnits a ≤ codeUnits b)

mutual

/-- The value with the keys of its objects in order. -/
@[local grind] def sortKeys (localeCompare : String → String → Int) : Json → Json
  | .array items => .array (sortItems localeCompare items)
  | .object fields =>
    .object ((sortMembers localeCompare fields).mergeSort fun a b => decide (localeCompare a.1 b.1 ≤ 0))
  | v => v

def sortItems (localeCompare : String → String → Int) : List Json → List Json
  | [] => []
  | v :: items => sortKeys localeCompare v :: sortItems localeCompare items

def sortMembers (localeCompare : String → String → Int) : List (String × Json) → List (String × Json)
  | [] => []
  | (k, v) :: fields => (k, sortKeys localeCompare v) :: sortMembers localeCompare fields

end

/-- `Math.max(0, Math.min(100, Number(value ?? 0)))`. -/
def clamp : Option Value → Option ℚ
  | none => some 0
  | some (.bool b) => some (if b then 100 else 0)
  | some (.number (.finite x)) => some (max 0 (min 100 x.toRat))
  | some (.number (.infinity negative)) => some (if negative then 0 else 100)
  | some (.number .nan) => none

/-- `score >= bound`. -/
def reaches (score : Option ℚ) (bound : ℚ) : Bool := score.any (bound ≤ ·)

/-- `new Map(evidence.map((item) => [item.indicator, item])).get(code)`. -/
def evidenceByCode (evidence : List MaturityEvidence) (code : String) : Option MaturityEvidence :=
  evidence.reverse.find? (·.indicator == code)

/-- The result of one indicator. -/
def indicatorResult (byCode : String → Option MaturityEvidence) (indicator : Indicator) :
    Except Thrown IndicatorResult := do
  let item := byCode indicator.code
  throwIf (indicator.requiredEvidence && !(present (item.bind (·.uri)) && present (item.bind (·.hash))))
    (maturityError "MATURITY_EVIDENCE_REQUIRED" ("Evidence is required for '" ++ indicator.code ++ "'") 422)
  let score := clamp (item.map (·.value))
  let minimumMet := indicator.minimum.all (reaches score)
  return { code := indicator.code, score, weight := indicator.weight
           passed := minimumMet && reaches score indicator.threshold, evidence := item }

/-- `indicators.reduce((sum, item) => sum + item.score * item.weight, 0)`. -/
def weightedSum : List IndicatorResult → Option ℚ
  | [] => some 0
  | r :: results => do return (← r.score) * r.weight + (← weightedSum results)

/-- `Math.round`. -/
def round (x : ℚ) : Int := ⌊x + 1 / 2⌋

def scoreOf (totalWeight : ℚ) (results : List IndicatorResult) : Option Int :=
  (weightedSum results).map fun sum => round (sum / totalWeight)

def levelOf (levels : List Level) (score : Option Int) : Number :=
  (((levels.mergeSort fun a b => decide (a.minimumScore ≤ b.minimumScore)).filter
    fun entry => reaches (score.map (↑)) entry.minimumScore).getLast?.map (·.level)).getD 0

/-- A score as the result shows it. -/
def scoreJson (score : Option Int) : Json := .number (score.elim .nan fun n => .finite n)

/-- What the evaluation hash is the digest of. -/
def reproducibility (profileId profileVersion : String) (inputIndicators : List (String × Value))
    (evidenceHashes : List String) (score : Option Int) (level : Number) : Json :=
  .object [("profileId", .string profileId), ("profileVersion", .string profileVersion),
    ("engineVersion", .string engineVersion),
    ("inputIndicators", .array (inputIndicators.map fun item =>
      .object [("code", .string item.1), ("value", item.2.toJson)])),
    ("evidenceHashes", .array (evidenceHashes.map .string)), ("score", scoreJson score), ("level", .number level)]

section
variable [Runtime] (s : Services)

/-- `stableJson`. -/
def stableJson (value : Json) : String := stringify (sortKeys s.localeCompare value)

/-- `typeof data === "string" ? data : JSON.stringify(data)`. -/
def dataText : Json → String
  | .string text => text
  | data => stringify data

/-- `prepareEvidence` on one item. -/
@[local grind] def prepare (twinId : String) (item : MaturityEvidence) : Except Thrown MaturityEvidence :=
  match item.data with
  | none => .ok item
  | some data =>
    if present item.uri then .ok item
    else match s.store with
      | none =>
        .error (.app (maturityError "MATURITY_STORAGE_UNAVAILABLE" "Evidence storage is not configured" 503))
      | some store => do
        let stored ← store {
          data := dataText data, contentType := item.contentType.getD "application/json"
          fileName := item.fileName.getD (item.indicator ++ ".json"), category := "evidence", twinId
          indicator := item.indicator }
        return { item with data := none, uri := some stored.uri, hash := some stored.hash
                           size := some stored.size, contentType := stored.contentType }

def prepareEvidence (twinId : String) (evidence : List MaturityEvidence) : Except Thrown (List MaturityEvidence) :=
  evidence.mapM (prepare s twinId)

def profileIdOf (profileName : String) : String :=
  if profileName = "default-v1" then "objectid-maturity-example-v1" else profileName

/-- Where the profile is. -/
def profileUri (profileId : String) : String :=
  if "objectid-profile://".toList.isPrefixOf profileId.toList then profileId
  else if profileId = "objectid-maturity-example-v1" then "objectid-profile://maturity/default/v1" else profileId

def profileVersionOf (profile : MaturityProfile) (uri : String) : Except Thrown String :=
  match s.getProfileVersion uri with
  | .ok version => .ok version
  | .error _ => conversion ((coalesce profile.version (some (.string "NOT_VERIFIED"))).elim none toString?)

/-- The evaluation of prepared evidence against a profile. -/
def assess (profileName profileVersion : String) (profile : MaturityProfile) (evidence : List MaturityEvidence) :
    Except Thrown MaturityResult := do
  let profileId := profileIdOf profileName
  let totalWeight := (profile.indicators.map (·.weight)).sum
  throwIf (totalWeight ≤ 0) (maturityError "MATURITY_PROFILE_INVALID" "Maturity profile has no positive weight" 500)
  let indicators ← profile.indicators.mapM (indicatorResult (evidenceByCode evidence))
  let score := scoreOf totalWeight indicators
  let level := levelOf profile.levels score
  let inputIndicators := evidence.map fun item => (item.indicator, item.value)
  let evidenceHashes := sortTexts ((evidence.filterMap (·.hash)).filter (· != ""))
  let evaluationHash := "sha256:" ++ s.sha256 (stableJson s
    (reproducibility profileId profileVersion inputIndicators evidenceHashes score level))
  return { profile := profileName, profileId, profileVersion, level, score, indicators, inputIndicators
           evidenceHashes, evaluationHash }

def evaluate (profileName : String) (evidence : List MaturityEvidence) (twinId : String) :
    Except Thrown MaturityResult := do
  let evidence ← prepareEvidence s twinId evidence
  let uri := profileUri (profileIdOf profileName)
  let profile ← s.getMaturityDefinition uri
  let profileVersion ← profileVersionOf s profile uri
  assess s profileName profileVersion profile evidence

end

/-! ## The range of a score -/

/-- A score between 0 and 100. -/
def InRange (score : Option ℚ) : Prop := ∃ x, score = some x ∧ 0 ≤ x ∧ x ≤ 100

/-- `typeof value === "boolean" ? (value ? 100 : 0) : Number(value)`. -/
def Value.numeric : Value → Number
  | .number x => x
  | .bool b => if b then 100 else 0

/-- The evidence is the same except for a value that is at least as large. -/
structure Raised (a b : MaturityEvidence) : Prop where
  same : b = { a with value := b.value }
  value : a.value.numeric.le b.value.numeric

/-- A score that is at least as large as another one. -/
def AtMost (x y : Option ℚ) : Prop := ∃ a b, x = some a ∧ y = some b ∧ a ≤ b

/-- The result of an indicator whose value has grown. -/
structure Grown (r r' : IndicatorResult) : Prop where
  weight : r'.weight = r.weight
  nonneg : 0 ≤ r.weight
  score : AtMost r.score r'.score

end Maturity
