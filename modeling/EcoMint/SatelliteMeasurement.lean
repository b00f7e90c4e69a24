import EcoMint.ExactNumber
import EcoMint.JsonOrder
import EcoMint.OracleValidator

/-!
# Measurements from satellite images

The mean NDVI of the usable scenes is set against the project's baseline: what
it gains on it, as a part of what there is to gain, is the vegetation cover that
carbon is estimated from.  The schemas keep every NDVI between -1 and 1.  At a
baseline of 1 there is nothing to gain, and the part is a division by zero.
-/

namespace EcoMint.Satellite

open ExactNumber Json

/-- The satellites that scenes come from. -/
inductive ImageSource
  | sentinel2
  | landsat8
  | planet
deriving DecidableEq, Repr

/-- A scene as it is served. -/
structure SceneFields where
  sceneId : String
  captureDate : String
  source : ImageSource
  cloudCover : ℚ
  ndviMean : ℚ
  ndwiMean : Option ℚ

/-- What the schema asks of the fields beyond their types. -/
def SatelliteSceneSchema (scene : SceneFields) : Prop :=
  scene.sceneId ≠ "" ∧ isoDate scene.captureDate = true ∧
    (0 ≤ scene.cloudCover ∧ scene.cloudCover ≤ 100) ∧
    (-1 ≤ scene.ndviMean ∧ scene.ndviMean ≤ 1) ∧
    ∀ ndwi ∈ scene.ndwiMean, -1 ≤ ndwi ∧ ndwi ≤ 1

/-- A scene that the schema accepts. -/
structure SatelliteScene extends SceneFields where
  accepted : SatelliteSceneSchema toSceneFields

/-- The fields of a project's configuration. -/
structure ProjectFields where
  projectId : String
  bbox : ℚ × ℚ × ℚ × ℚ
  areaHa : ℚ
  baselineNdvi : ℚ

/-- What the schema asks of them. -/
def SatelliteProjectConfigSchema (project : ProjectFields) : Prop :=
  project.projectId ≠ "" ∧ 0 < project.areaHa ∧
    -1 ≤ project.baselineNdvi ∧ project.baselineNdvi ≤ 1

/-- A project that the schema accepts. -/
structure SatelliteProjectConfig extends ProjectFields where
  accepted : SatelliteProjectConfigSchema toProjectFields

/-- `No usable satellite scenes (cloud cover <= ${maxCloudCover}%) for period
${periodStart}..${periodEnd}` -/
structure SatelliteNoUsableScenesError where
  periodStart : String
  periodEnd : String
  maxCloudCover : ℚ
deriving DecidableEq, Repr

/-- What a report is built of. -/
structure BuildReportInput where
  projectId : String
  provider : String
  methodology : String
  periodStart : String
  periodEnd : String
  carbonSequestered : ExactNumber
  confidence : ℚ
  satelliteSceneCount : Nat
  meanNdvi : ExactNumber
  ndviChange : ExactNumber
  meanNdwi : Option ExactNumber
  sources : List ImageSource
  sceneIds : List String
  bbox : ℚ × ℚ × ℚ × ℚ
  areaHa : ℚ
  baselineNdvi : ℚ
  maxCloudCover : ℚ

/-- The fractional vegetation cover. -/
def calculateBiomassChange (ndviBaseline ndviCurrent : ExactNumber) : ExactNumber :=
  let fractionalCover := (ndviCurrent - ndviBaseline) / (finite 1 - ndviBaseline)
  max (finite 0) fractionalCover

/-- Tons of carbon in kilograms of carbon dioxide. -/
def TONNES_C_TO_KG_CO2E : ℚ := 44 / 12 * 1000

/-- The carbon of an area whose cover has changed so much. -/
def estimateCarbonSequestration (areaHa ndviChange : ExactNumber) : ExactNumber :=
  let defaultBiomassFactor : ℚ := 367 / 100
  areaHa * ndviChange * finite defaultBiomassFactor * finite TONNES_C_TO_KG_CO2E

/-- The scene was taken within the period; dates are compared as texts. -/
def withinPeriod (scene : SatelliteScene) (periodStart periodEnd : String) : Bool :=
  keyLe periodStart scene.captureDate && keyLe scene.captureDate periodEnd

/-- The mean of some values; `NaN` of none. -/
def mean (values : List ℚ) : ExactNumber :=
  values.foldl (fun sum value => sum + finite value) (finite 0) / finite values.length

/-- The mean of the values that are there, if there are any. -/
def meanOfDefined (values : List (Option ℚ)) : Option ExactNumber :=
  let defined := values.filterMap id
  if defined.length = 0 then none else some (mean defined)

/-- The mean greenness of the scenes; `NaN` of none. -/
def meanNdvi (scenes : List SatelliteScene) : ExactNumber :=
  scenes.foldl (fun sum scene => sum + finite scene.ndviMean) (finite 0) / finite scenes.length

/-- The scenes of the period under the greatest cloud cover. -/
def usableScenes (scenes : List SatelliteScene) (maxCloudCover : ℚ)
    (periodStart periodEnd : String) : List SatelliteScene :=
  scenes.filter fun scene =>
    scene.cloudCover ≤ maxCloudCover && withinPeriod scene periodStart periodEnd

/-- What a measurement makes of the scenes that were fetched. -/
def ingestSatelliteMeasurement (project : SatelliteProjectConfig) (periodStart periodEnd : String)
    (maxCloudCover : Option ℚ) (scenes : List SatelliteScene) :
    Except SatelliteNoUsableScenesError BuildReportInput :=
  let maxCloudCover := maxCloudCover.getD 20
  let usable := usableScenes scenes maxCloudCover periodStart periodEnd
  if usable.length = 0 then .error ⟨periodStart, periodEnd, maxCloudCover⟩
  else
    let meanNdvi := meanNdvi usable
    let ndviChange := calculateBiomassChange (finite project.baselineNdvi) meanNdvi
    .ok {
      projectId := project.projectId
      provider := "SatelliteProcessor"
      methodology := "REMOTE_SENSING"
      periodStart, periodEnd
      carbonSequestered := estimateCarbonSequestration (finite project.areaHa) ndviChange
      confidence := 85 / 100
      satelliteSceneCount := usable.length
      meanNdvi, ndviChange
      meanNdwi := meanOfDefined (usable.map fun scene => scene.ndwiMean)
      sources := (usable.map fun scene => scene.source).eraseDups
      sceneIds := usable.map fun scene => scene.sceneId
      bbox := project.bbox
      areaHa := project.areaHa
      baselineNdvi := project.baselineNdvi
      maxCloudCover }

/-! ## The vegetation cover -/

/-- The vegetation cover of scenes over the project's baseline. -/
def vegetationCover (project : SatelliteProjectConfig) (scenes : List SatelliteScene) :
    ExactNumber :=
  calculateBiomassChange (finite project.baselineNdvi) (meanNdvi scenes)

/-- The same scenes but for their NDVI, which is nowhere less. -/
def Greener (scenes scenes' : List SatelliteScene) : Prop :=
  List.Forall₂ (fun scene scene' => scene.ndviMean ≤ scene'.ndviMean) scenes scenes'

structure WellDefined (project : SatelliteProjectConfig) (scenes : List SatelliteScene) : Prop where
  /-- neither divisor is zero -/
  divides : (finite scenes.length : ExactNumber) ≠ finite 0 ∧
    (finite 1 - finite project.baselineNdvi : ExactNumber) ≠ finite 0
  inUnit : ∃ cover : ℚ, vegetationCover project scenes = finite cover ∧ 0 ≤ cover ∧ cover ≤ 1
  monotone : ∀ scenes', Greener scenes scenes' →
    Le (vegetationCover project scenes) (vegetationCover project scenes')

/-- The mean of scenes that there are is a rational. -/
theorem meanNdvi_eq {scenes : List SatelliteScene} (h : scenes ≠ []) :
    meanNdvi scenes =
      finite ((scenes.map fun scene => scene.ndviMean).sum / scenes.length) := by
  have hlength : (scenes.length : ℚ) ≠ 0 := by
    exact_mod_cast List.length_pos_of_ne_nil h |>.ne'
  rw [meanNdvi, foldl_add_finite, finite_div _ hlength]

/-- The mean of the scenes is at most 1, as each of them is. -/
theorem mean_le_one {scenes : List SatelliteScene} (h : scenes ≠ []) :
    (scenes.map fun scene => scene.ndviMean).sum / scenes.length ≤ 1 := by
  have hvalues : (scenes.map fun scene => scene.ndviMean) ≠ [] :=
    fun hnil => h (List.map_eq_nil_iff.mp hnil)
  have hbound : ∀ value ∈ scenes.map fun scene => scene.ndviMean, value ≤ 1 := by
    intro value hvalue
    obtain ⟨scene, -, rfl⟩ := List.mem_map.mp hvalue
    exact scene.accepted.2.2.2.1.2
  have hmean := Mean.le_of_forall_le hvalues hbound
  rwa [List.length_map] at hmean

/-- Greener scenes have no smaller mean. -/
theorem mean_mono {scenes scenes' : List SatelliteScene} (h : Greener scenes scenes') :
    (scenes.map fun scene => scene.ndviMean).sum / scenes.length ≤
      (scenes'.map fun scene => scene.ndviMean).sum / scenes'.length := by
  have hvalues : List.Forall₂ (· ≤ ·) (scenes.map fun scene => scene.ndviMean)
      (scenes'.map fun scene => scene.ndviMean) :=
    List.forall₂_map_left_iff.mpr (List.forall₂_map_right_iff.mpr h)
  have hmean := Mean.le_of_forall₂_le hvalues
  rwa [List.length_map, List.length_map] at hmean

/-- Below a baseline of 1, the cover is the part of the possible gain. -/
theorem vegetationCover_eq {project : SatelliteProjectConfig} (hbaseline : project.baselineNdvi ≠ 1)
    {scenes : List SatelliteScene} (h : scenes ≠ []) :
    vegetationCover project scenes =
      finite (Max.max 0 (((scenes.map fun scene => scene.ndviMean).sum / scenes.length -
        project.baselineNdvi) / (1 - project.baselineNdvi))) := by
  have hgain : 1 - project.baselineNdvi ≠ 0 := sub_ne_zero.mpr hbaseline.symm
  rw [vegetationCover, calculateBiomassChange, meanNdvi_eq h]
  simp only [finite_sub, finite_div _ hgain, max_finite]

theorem gain_pos {project : SatelliteProjectConfig} (hbaseline : project.baselineNdvi ≠ 1) :
    0 < 1 - project.baselineNdvi :=
  sub_pos.mpr (lt_of_le_of_ne project.accepted.2.2.2 hbaseline)

/-- Below a baseline of 1, the cover is in the unit interval. -/
theorem cover_in_unit {project : SatelliteProjectConfig} (hbaseline : project.baselineNdvi ≠ 1)
    {scenes : List SatelliteScene} (h : scenes ≠ []) :
    ∃ cover : ℚ, vegetationCover project scenes = finite cover ∧ 0 ≤ cover ∧ cover ≤ 1 := by
  refine ⟨_, vegetationCover_eq hbaseline h, le_max_left _ _, max_le zero_le_one ?_⟩
  rw [div_le_one (gain_pos hbaseline)]
  exact sub_le_sub_right (mean_le_one h) _

/-- **When the vegetation cover is well defined**: for every project that the
schema accepts but those with a baseline NDVI of 1, whatever the scenes are. -/
theorem well_defined_iff (project : SatelliteProjectConfig) (scenes : List SatelliteScene)
    (h : scenes ≠ []) : WellDefined project scenes ↔ project.baselineNdvi ≠ 1 := by
  constructor
  · intro hdefined hbaseline
    apply hdefined.divides.2
    rw [finite_sub, hbaseline, sub_self]
  · intro hbaseline
    have hgain := gain_pos hbaseline
    refine ⟨⟨?_, ?_⟩, cover_in_unit hbaseline h, ?_⟩
    · intro hzero
      have hlength : (scenes.length : ℚ) = 0 := ExactNumber.finite.inj hzero
      exact h (List.length_eq_zero_iff.mp (by exact_mod_cast hlength))
    · rw [finite_sub]
      intro hzero
      exact hgain.ne' (ExactNumber.finite.inj hzero)
    · intro scenes' hgreener
      have h' : scenes' ≠ [] := by
        rintro rfl
        cases hgreener
        exact h rfl
      rw [vegetationCover_eq hbaseline h, vegetationCover_eq hbaseline h', le_finite]
      apply max_le_max_left
      exact div_le_div_of_nonneg_right (sub_le_sub_right (mean_mono hgreener) _) hgain.le

/-- The project of the sample. -/
def forest : SatelliteProjectConfig where
  projectId := "42"
  bbox := (-765 / 10, -62 / 10, -762 / 10, -59 / 10)
  areaHa := 1200
  baselineNdvi := 28 / 100
  accepted := ⟨by decide, by norm_num, by norm_num, by norm_num⟩

/-- A scene that is green all over. -/
def greenScene : SatelliteScene where
  sceneId := "S2A"
  captureDate := "2025-01-15"
  source := .sentinel2
  cloudCover := 5
  ndviMean := 1
  ndwiMean := none
  accepted := ⟨by decide, rfl, by norm_num, by norm_num, nofun⟩

/-- On the sample. -/
theorem well_defined_forest : WellDefined forest [greenScene] :=
  (well_defined_iff forest [greenScene] (List.cons_ne_nil _ _)).mpr (by norm_num [forest])

/-- A project whose baseline leaves nothing to gain. -/
def fullForest : SatelliteProjectConfig where
  projectId := "42"
  bbox := forest.bbox
  areaHa := 1200
  baselineNdvi := 1
  accepted := ⟨by decide, by norm_num, by norm_num, by norm_num⟩

/-- A division by zero, and a cover that is no number. -/
theorem full_forest_is_nan :
    (finite 1 - finite fullForest.baselineNdvi : ExactNumber) = finite 0 ∧
    vegetationCover fullForest [greenScene] = nan ∧ ¬ WellDefined fullForest [greenScene] := by
  have hzero : (finite 1 - finite fullForest.baselineNdvi : ExactNumber) = finite 0 := by
    rw [finite_sub]
    exact congrArg finite (sub_self 1)
  have hnan : vegetationCover fullForest [greenScene] = nan := by
    rw [vegetationCover, meanNdvi_eq (List.cons_ne_nil _ _)]
    have hmean : ([greenScene].map fun scene => scene.ndviMean).sum / ([greenScene].length : ℚ) =
        fullForest.baselineNdvi := by norm_num [greenScene, fullForest]
    rw [hmean, calculateBiomassChange, hzero, finite_sub, sub_self, finite_div_zero,
      infinityOf_zero]
    rfl
  exact ⟨hzero, hnan, fun hdefined => hdefined.divides.2 hzero⟩

/-! ## What a measurement reports -/

/-- The carbon of rationals is a rational. -/
theorem estimate_finite (areaHa cover : ℚ) :
    estimateCarbonSequestration (finite areaHa) (finite cover) =
      finite (areaHa * cover * (367 / 100) * TONNES_C_TO_KG_CO2E) := rfl

/-- A measurement is of usable scenes, of which there are some. -/
theorem ingest_ok {project : SatelliteProjectConfig} {periodStart periodEnd : String}
    {maxCloudCover : Option ℚ} {scenes : List SatelliteScene} {input : BuildReportInput}
    (h : ingestSatelliteMeasurement project periodStart periodEnd maxCloudCover scenes =
      .ok input) :
    ∃ usable, usable = usableScenes scenes (maxCloudCover.getD 20) periodStart periodEnd ∧
      usable ≠ [] ∧ input.ndviChange = vegetationCover project usable ∧
      input.carbonSequestered =
        estimateCarbonSequestration (finite project.areaHa) (vegetationCover project usable) := by
  rw [ingestSatelliteMeasurement] at h
  dsimp only at h
  split at h
  · cases h
  · rename_i husable
    obtain rfl := Except.ok.inj h
    exact ⟨_, rfl, fun hnil => husable (List.length_eq_zero_iff.mpr hnil), rfl, rfl⟩

/-- The carbon that is reported is no less than zero, and no more than that of an
area that gains all there is to gain. -/
theorem ingest_carbon_bounded {project : SatelliteProjectConfig} {periodStart periodEnd : String}
    {maxCloudCover : Option ℚ} {scenes : List SatelliteScene} {input : BuildReportInput}
    (hbaseline : project.baselineNdvi ≠ 1)
    (h : ingestSatelliteMeasurement project periodStart periodEnd maxCloudCover scenes =
      .ok input) :
    ∃ carbon : ℚ, input.carbonSequestered = finite carbon ∧ 0 ≤ carbon ∧
      carbon ≤ project.areaHa * (367 / 100) * TONNES_C_TO_KG_CO2E := by
  obtain ⟨usable, -, husable, -, hcarbon⟩ := ingest_ok h
  obtain ⟨cover, hcover, hcover0, hcover1⟩ := cover_in_unit hbaseline husable
  have harea : 0 ≤ project.areaHa := project.accepted.2.1.le
  have hfactor : (0 : ℚ) ≤ 367 / 100 := by norm_num
  have htonnes : 0 ≤ TONNES_C_TO_KG_CO2E := by norm_num [TONNES_C_TO_KG_CO2E]
  refine ⟨_, by rw [hcarbon, hcover, estimate_finite], by positivity, ?_⟩
  apply mul_le_mul_of_nonneg_right _ htonnes
  apply mul_le_mul_of_nonneg_right _ hfactor
  exact mul_le_of_le_one_right harea hcover1

end EcoMint.Satellite
