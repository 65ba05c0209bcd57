import MpQuic.Library.Run
import MpQuic.QAccess.Controller

namespace MpQuic.QAccess

open MpQuic.Library

inductive ReloadCall where
  | reloadCoefficientsFromDisk (disk : CoeffsDisk)
  | maybeReloadCoefficients (smoothing : ℚ) (now : Int) (disk : CoeffsDisk)
  | maybeCheckUpdateResponse (smoothing : ℚ) (now : Int) (disk : CoeffsDisk)
      (response : Option ResponseFields)

def reloadStep (uc : UtilityController) : ReloadCall →
    Option (UtilityController × List CoeffsDocument)
  | .reloadCoefficientsFromDisk disk => some (uc.reloadCoefficientsFromDisk disk, [])
  | .maybeReloadCoefficients smoothing now disk =>
    let reloaded := { uc with coeffSmoothing := smoothing }.maybeReloadCoefficients now disk
    some (reloaded.1, reloaded.2.toList)
  | .maybeCheckUpdateResponse smoothing now disk response =>
    some ({ uc with coeffSmoothing := smoothing }.maybeCheckUpdateResponse now disk response, [])

-- The coefficients that are kept are valid. Those that are resolved from the document always are.
structure UtilityController.Valid (uc : UtilityController) : Prop where
  common : uc.coeffs.entry.valid = true
  perPath : ∀ pathID, ∀ c ∈ uc.perPathCoeffs.bind fun perPath => perPath.lookup pathID,
    c.entry.valid = true

section Mixing

variable {s : ℚ} {prev loaded : QAccessCoefficients}

theorem clampUnit_mem (s : ℚ) : 0 ≤ clampUnit s ∧ clampUnit s ≤ 1 := by
  unfold clampUnit
  split_ifs with hlow hhigh
  · exact ⟨le_refl _, zero_le_one⟩
  · exact ⟨zero_le_one, le_refl _⟩
  · exact ⟨not_lt.mp hlow, not_lt.mp hhigh⟩

theorem valid_smooth (hs : 0 ≤ s ∧ s ≤ 1) (hprev : prev.entry.valid = true)
    (hloaded : loaded.entry.valid = true) : (smooth s prev loaded).entry.valid = true := by
  have hweights : 0 ≤ 1 - s ∧ 0 ≤ s ∧ 1 - s + s = 1 :=
    ⟨sub_nonneg.mpr hs.2, hs.1, sub_add_cancel 1 s⟩
  obtain ⟨hleft, hright, hsum⟩ := hweights
  have hmix : ∀ {I : Set ℚ}, Convex ℚ I → ∀ {x y : ℚ}, x ∈ I → y ∈ I →
      x * (1 - s) + y * s ∈ I := by
    intro I hI x y hx hy
    have hmem := hI hx hy hleft hright hsum
    rwa [smul_eq_mul, smul_eq_mul, mul_comm (1 - s), mul_comm s] at hmem
  rw [CoeffEntry.valid_iff] at hprev hloaded ⊢
  exact ⟨hmix (convex_Ioc 0 2) hprev.1 hloaded.1, hmix (convex_Icc 0 1) hprev.2.1 hloaded.2.1,
    hmix (convex_Icc 0 1) hprev.2.2 hloaded.2.2⟩

theorem valid_builtin : defaultQAccessTCoefficients.entry.valid = true := by
  decide +kernel

theorem valid_resolveWithMetric (doc : CoeffsDocument) (pathID : Nat) :
    (resolveWithMetric doc pathID).entry.valid = true := by
  rw [entry_resolveWithMetric]
  exact valid_resolve doc pathID

end Mixing

namespace UtilityController

variable {uc : UtilityController}

theorem Valid.getCoefficientsForPath (h : uc.Valid) (pathID : Nat) :
    (uc.getCoefficientsForPath pathID).entry.valid = true := by
  unfold UtilityController.getCoefficientsForPath
  split
  next c hc => exact h.perPath pathID c hc
  · split
    · exact valid_resolve _ _
    · exact h.common

theorem valid_perPathOf {doc : CoeffsDocument} {f : Nat → QAccessCoefficients}
    (hf : ∀ pathID, (f pathID).entry.valid = true) (pathID : Nat) :
    ∀ c ∈ (perPathOf doc f).lookup pathID, c.entry.valid = true := by
  intro c hc
  rw [lookup_perPathOf] at hc
  split at hc
  · obtain rfl := Option.mem_some.mp hc
    exact hf pathID
  · cases hc

theorem Valid.applyPath (h : uc.Valid) {s : ℚ} (hs : 0 ≤ s ∧ s ≤ 1) (doc : CoeffsDocument)
    (pathID : Nat) : (uc.applyPath s doc pathID).entry.valid = true := by
  refine valid_smooth hs ?_ (valid_resolveWithMetric doc pathID)
  cases hold : uc.perPathCoeffs.bind fun perPath => perPath.lookup pathID with
  | none => exact valid_resolveWithMetric doc pathID
  | some c => exact h.perPath pathID c hold

theorem Valid.applyDocument (h : uc.Valid) (doc : CoeffsDocument) : (uc.applyDocument doc).Valid := by
  have hs := clampUnit_mem uc.coeffSmoothing
  by_cases hnil : doc.pathIDs = []
  · rw [applyDocument_of_nil hnil]
    exact ⟨valid_smooth (clampUnit_mem _) h.common (valid_resolveWithMetric doc 0), h.perPath⟩
  · rw [applyDocument_of_ne_nil hnil]
    exact ⟨valid_resolveWithMetric doc 0, valid_perPathOf (h.applyPath hs doc)⟩

theorem valid_of_builtin (hcommon : uc.coeffs = defaultQAccessTCoefficients)
    (hnone : uc.perPathCoeffs = none) : uc.Valid := by
  refine ⟨hcommon ▸ valid_builtin, fun pathID c hc => ?_⟩
  rw [hnone] at hc
  cases hc

theorem valid_reloadCoefficientsFromDisk (uc : UtilityController) (disk : CoeffsDisk) :
    (uc.reloadCoefficientsFromDisk disk).Valid := by
  unfold UtilityController.reloadCoefficientsFromDisk
  split
  · exact valid_of_builtin rfl rfl
  next doc hload =>
    refine ⟨?_, valid_perPathOf (valid_resolveWithMetric doc)⟩
    dsimp only
    split
    · exact valid_resolveWithMetric doc 0
    · exact valid_resolveWithMetric doc 0

theorem Valid.of_eq (h : uc.Valid) {other : UtilityController} (hcommon : other.coeffs = uc.coeffs)
    (hperPath : other.perPathCoeffs = uc.perPathCoeffs) : other.Valid :=
  ⟨hcommon ▸ h.common, hperPath ▸ h.perPath⟩

theorem Valid.maybeReloadCoefficients (h : uc.Valid) (now : Int) (disk : CoeffsDisk) :
    (uc.maybeReloadCoefficients now disk).1.Valid := by
  unfold UtilityController.maybeReloadCoefficients
  dsimp only
  split_ifs
  · exact h
  · exact h
  · exact h.of_eq rfl rfl
  · exact h.of_eq rfl rfl
  · split
    · exact h.of_eq rfl rfl
    · refine Valid.applyDocument ?_ _
      exact h.of_eq rfl rfl

theorem Valid.maybeCheckUpdateResponse (h : uc.Valid) (now : Int) (disk : CoeffsDisk)
    (response : Option ResponseFields) : (uc.maybeCheckUpdateResponse now disk response).Valid := by
  unfold UtilityController.maybeCheckUpdateResponse
  split
  · have hforced : (uc.forceReloadCoefficients now disk).1.Valid := by
      refine Valid.maybeReloadCoefficients ?_ now disk
      exact h.of_eq rfl rfl
    dsimp only
    split
    · exact hforced.of_eq rfl rfl
    · exact h.of_eq rfl rfl
  · exact h

theorem valid_newController (coeffReload runtimeMode phase2Owner : Bool) (coeffReloadInterval : Int)
    (coeffSmoothing : ℚ) (disk : Option CoeffsDisk) :
    (newController coeffReload runtimeMode phase2Owner coeffReloadInterval coeffSmoothing
      disk).Valid := by
  unfold newController
  split
  · split
    · exact valid_reloadCoefficientsFromDisk _ _
    · exact valid_of_builtin rfl rfl
  · exact valid_of_builtin rfl rfl

theorem Valid.reloadStep (h : uc.Valid) (call : ReloadCall) :
    ∃ next docs, reloadStep uc call = some (next, docs) ∧ next.Valid := by
  cases call with
  | reloadCoefficientsFromDisk disk => exact ⟨_, _, rfl, valid_reloadCoefficientsFromDisk uc disk⟩
  | maybeReloadCoefficients smoothing now disk =>
    refine ⟨_, _, rfl, Valid.maybeReloadCoefficients ?_ now disk⟩
    exact h.of_eq rfl rfl
  | maybeCheckUpdateResponse smoothing now disk response =>
    refine ⟨_, _, rfl, Valid.maybeCheckUpdateResponse ?_ now disk response⟩
    exact h.of_eq rfl rfl

end UtilityController

-- After every sequence of reloads, of whatever stands in the file, the coefficients of every
-- path are within their bounds.
theorem coefficients_in_use_are_valid (coeffReload runtimeMode phase2Owner : Bool)
    (coeffReloadInterval : Int) (coeffSmoothing : ℚ) (disk : Option CoeffsDisk)
    (calls : List ReloadCall) :
    ∃ last docs, run reloadStep (newController coeffReload runtimeMode phase2Owner
        coeffReloadInterval coeffSmoothing disk) calls = some (last, docs) ∧
      ∀ pathID,
        (0 < (last.getCoefficientsForPath pathID).alpha ∧
          (last.getCoefficientsForPath pathID).alpha ≤ 2) ∧
        (0 ≤ (last.getCoefficientsForPath pathID).beta ∧
          (last.getCoefficientsForPath pathID).beta ≤ 1) ∧
        0 ≤ (last.getCoefficientsForPath pathID).gamma ∧
          (last.getCoefficientsForPath pathID).gamma ≤ 1 := by
  obtain ⟨last, docs, hr, hvalid⟩ := run_progress (fun _ _ (uc : UtilityController) => uc.Valid)
    (fun _ _ _ call h _ => UtilityController.Valid.reloadStep h call) [] [] _ calls
    (UtilityController.valid_newController coeffReload runtimeMode phase2Owner coeffReloadInterval
      coeffSmoothing disk) (Along.always _ _)
  exact ⟨last, docs, hr, fun pathID => CoeffEntry.valid_iff.mp (hvalid.getCoefficientsForPath pathID)⟩

end MpQuic.QAccess
