import EcoMint.InsertionMap
import EcoMint.OracleValidator
import EcoMint.Staleness
import Mathlib.Algebra.BigOperators.Group.List.Basic
import Mathlib.Algebra.Order.Field.Rat
import Mathlib.Data.List.Dedup
import Mathlib.Data.List.Sort

/-!
# Measurements from sensors

The readings that a sensor network returns for a project are grouped by device.
For each device the last soil carbon is set against the first, and carbon is
estimated from the mean of these changes.  The query names the devices and the
period, but what comes back is not compared with them: readings of other devices
and other times count too.
-/

namespace EcoMint.Iot

open InsertionMap

/-- What a sensor may measure. -/
structure IoTSensorMetrics where
  soilMoisture : Option ℚ
  temperature : Option ℚ
  humidity : Option ℚ
  soilCarbonPpm : Option ℚ
  waterTableCm : Option ℚ
  co2Ppm : Option ℚ
deriving DecidableEq

/-- What the schema asks of the numbers that are not `null`. -/
def IoTSensorMetricsSchema (metrics : IoTSensorMetrics) : Prop :=
  (∀ value ∈ metrics.soilMoisture, 0 ≤ value ∧ value ≤ 100) ∧
  (∀ value ∈ metrics.temperature, -50 ≤ value ∧ value ≤ 60) ∧
  (∀ value ∈ metrics.humidity, 0 ≤ value ∧ value ≤ 100) ∧
  (∀ value ∈ metrics.soilCarbonPpm, 0 ≤ value) ∧
  ∀ value ∈ metrics.co2Ppm, 0 ≤ value

/-- A reading that the schema accepts.  Its timestamp is one that `Date.parse`
reads. -/
structure IoTSensorReading where
  deviceId : String
  timestamp : Staleness.Instant
  metrics : IoTSensorMetrics
  named : deviceId ≠ ""
  inRange : IoTSensorMetricsSchema metrics

/-- A project that the schema accepts. -/
structure IotProjectConfig where
  projectId : String
  deviceIds : List String
  areaHa : ℚ
  named : projectId ≠ ""
  hasDevices : deviceIds ≠ []
  devicesNamed : ∀ deviceId ∈ deviceIds, deviceId ≠ ""
  area_pos : 0 < areaHa

/-- What the adapter throws. -/
structure IotAdapterError where
  name : String
  message : String
deriving DecidableEq, Repr

/-- No reading has soil carbon or a water table. -/
def IotNoValidReadingsError (deviceIds : List String) (periodStart periodEnd : String) :
    IotAdapterError where
  name := "IotNoValidReadingsError"
  message := "No valid sensor readings for devices [" ++ ", ".intercalate deviceIds ++
    "] in period " ++ periodStart ++ ".." ++ periodEnd

/-- No device has soil carbon at two times. -/
def IotNoSoilCarbonDeltaError (deviceIds : List String) : IotAdapterError where
  name := "IotNoSoilCarbonDeltaError"
  message := "No device reported soil carbon at both period start and end (devices: " ++
    ", ".intercalate deviceIds ++ ")"

/-- The means over all readings. -/
structure SensorAggregate where
  avgSoilMoisture : Option ℚ
  avgTemperature : Option ℚ
  avgHumidity : Option ℚ
  avgSoilCarbonPpm : Option ℚ
  avgWaterTableCm : Option ℚ
  sampleCount : Nat
  deviceCount : Nat
deriving DecidableEq

/-- The mean of some values, if there are any. -/
def mean (values : List ℚ) : Option ℚ :=
  if values.length = 0 then none else some (values.sum / values.length)

/-- The means of the readings, metric by metric. -/
def aggregateSensorReadings (readings : List IoTSensorReading) : SensorAggregate where
  avgSoilMoisture := mean (readings.filterMap fun reading => reading.metrics.soilMoisture)
  avgTemperature := mean (readings.filterMap fun reading => reading.metrics.temperature)
  avgHumidity := mean (readings.filterMap fun reading => reading.metrics.humidity)
  avgSoilCarbonPpm := mean (readings.filterMap fun reading => reading.metrics.soilCarbonPpm)
  avgWaterTableCm := mean (readings.filterMap fun reading => reading.metrics.waterTableCm)
  sampleCount := readings.length
  deviceCount := (readings.map IoTSensorReading.deviceId).dedup.length

/-- The mass of a cubic metre of soil. -/
def SOIL_BULK_DENSITY_KG_M3 : ℚ := 14 / 10 * 1000

/-- How deep the samples go. -/
def SOIL_SAMPLE_DEPTH_M : ℚ := 3 / 10

/-- Carbon in carbon dioxide. -/
def KG_C_TO_KG_CO2E : ℚ := 44 / 12

/-- The carbon dioxide of a hectare for each part per million. -/
def KG_CO2E_PER_HA_PER_PPM : ℚ :=
  1 / 1000000 * SOIL_BULK_DENSITY_KG_M3 * SOIL_SAMPLE_DEPTH_M * 10000 * KG_C_TO_KG_CO2E

/-- The soil carbon of one reading. -/
structure Sample where
  time : Int
  ppm : ℚ
deriving DecidableEq

/-- The samples of soil carbon, each with its device. -/
def samplesOf (readings : List IoTSensorReading) : List (String × Sample) :=
  readings.filterMap fun reading => reading.metrics.soilCarbonPpm.map fun ppm =>
    (reading.deviceId, ⟨reading.timestamp.ms, ppm⟩)

/-- The samples of each device, in the order of the readings. -/
def byDevice (readings : List IoTSensorReading) : List (String × List Sample) :=
  gather Prod.fst (fun _ => []) (fun samples entry => samples ++ [entry.2]) (samplesOf readings)

/-- The change from the first sample of a device to its last, if it has two. -/
def deltaOf (samples : List Sample) : Option ℚ :=
  let sorted := samples.mergeSort fun a b => a.time ≤ b.time
  if 2 ≤ sorted.length then
    (sorted.getLast?.bind fun last => sorted.head?.map fun first => last.ppm - first.ppm)
  else none

/-- The mean change of the devices that have one. -/
def meanSoilCarbonDeltaPpm (readings : List IoTSensorReading) : Option ℚ :=
  mean ((byDevice readings).filterMap fun entry => deltaOf entry.2)

/-- What a report is built of. -/
structure BuildReportInput where
  projectId : String
  provider : String
  methodology : String
  periodStart : String
  periodEnd : String
  carbonSequestered : ℚ
  confidence : ℚ
  sensorSampleCount : Nat
  sensorDeviceCount : Nat
  soilCarbonDeltaPpm : ℚ
  avgSoilCarbonPpm : Option ℚ
  avgWaterTableCm : Option ℚ
  deviceIds : List String
  areaHa : ℚ
  kgCo2ePerHaPerPpm : ℚ
deriving DecidableEq

/-- The readings that say anything about carbon. -/
def validReadings (readings : List IoTSensorReading) : List IoTSensorReading :=
  readings.filter fun reading =>
    reading.metrics.soilCarbonPpm ≠ none ∨ reading.metrics.waterTableCm ≠ none

/-- What is measured, before a report is built of it. -/
def measure (project : IotProjectConfig) (periodStart periodEnd : String)
    (readings : List IoTSensorReading) : Except IotAdapterError BuildReportInput :=
  let validReadings := validReadings readings
  if validReadings.length = 0 then
    .error (IotNoValidReadingsError project.deviceIds periodStart periodEnd)
  else
    match meanSoilCarbonDeltaPpm validReadings with
    | none => .error (IotNoSoilCarbonDeltaError project.deviceIds)
    | some soilCarbonDeltaPpm =>
        let aggregate := aggregateSensorReadings validReadings
        .ok {
          projectId := project.projectId
          provider := "IotSensorNetwork"
          methodology := "IOT_SENSORS"
          periodStart, periodEnd
          carbonSequestered :=
            max 0 (soilCarbonDeltaPpm * project.areaHa * KG_CO2E_PER_HA_PER_PPM)
          confidence := 75 / 100
          sensorSampleCount := aggregate.sampleCount
          sensorDeviceCount := aggregate.deviceCount
          soilCarbonDeltaPpm
          avgSoilCarbonPpm := aggregate.avgSoilCarbonPpm
          avgWaterTableCm := aggregate.avgWaterTableCm
          deviceIds := project.deviceIds
          areaHa := project.areaHa
          kgCo2ePerHaPerPpm := KG_CO2E_PER_HA_PER_PPM }

/-- `build` is `buildOracleReport`, which may fail too. -/
def aggregateIotProject {Report Failure : Type} (build : BuildReportInput → Except Failure Report)
    (project : IotProjectConfig) (periodStart periodEnd : String)
    (readings : List IoTSensorReading) : Except (IotAdapterError ⊕ Failure) Report := do
  let input ← (measure project periodStart periodEnd readings).mapError Sum.inl
  (build input).mapError Sum.inr

/-! ## A project's own readings -/

/-- The readings of the project's devices in the period. -/
def ownReadings (project : IotProjectConfig) (periodStart periodEnd : String)
    (readings : List IoTSensorReading) : List IoTSensorReading :=
  readings.filter fun reading => reading.deviceId ∈ project.deviceIds ∧
    lessEq (getTime periodStart) (some reading.timestamp.ms) ∧
    lessEq (some reading.timestamp.ms) (getTime periodEnd)

/-- The same readings of the project's devices in the period, in any order. -/
def Coincide (project : IotProjectConfig) (periodStart periodEnd : String)
    (readings readings' : List IoTSensorReading) : Prop :=
  (ownReadings project periodStart periodEnd readings).Perm
    (ownReadings project periodStart periodEnd readings')

/-- The outcome is the same for all readings that coincide on the project's own. -/
def DependsOnOwnData {Report Failure : Type} (build : BuildReportInput → Except Failure Report)
    (project : IotProjectConfig) (periodStart periodEnd : String) : Prop :=
  ∀ readings readings', Coincide project periodStart periodEnd readings readings' →
    aggregateIotProject build project periodStart periodEnd readings =
      aggregateIotProject build project periodStart periodEnd readings'

/-! ## Readings of a device that is not the project's -/

/-- There is a device that is not in the list. -/
theorem exists_fresh (deviceIds : List String) :
    ∃ deviceId : String, deviceId ≠ "" ∧ deviceId ∉ deviceIds := by
  let total := (deviceIds.map String.length).sum
  refine ⟨String.ofList (List.replicate (total + 1) 'x'), ?_, ?_⟩
  · intro hempty
    have hlength := congrArg String.length hempty
    simp at hlength
  · intro hmem
    have hle := List.single_le_sum (fun _ _ => Nat.zero_le _) _
      (List.mem_map_of_mem (f := String.length) hmem)
    rw [String.length_ofList, List.length_replicate] at hle
    omega

/-- A reading of nothing. -/
def noMetrics : IoTSensorMetrics := ⟨none, none, none, none, none, none⟩

/-- The time zero. -/
def epoch : Staleness.Instant := ⟨0, by decide⟩

/-- A reading of the water table alone. -/
def waterReading (deviceId : String) (hnamed : deviceId ≠ "") : IoTSensorReading where
  deviceId
  timestamp := epoch
  metrics := { noMetrics with waterTableCm := some 0 }
  named := hnamed
  inRange := ⟨nofun, nofun, nofun, nofun, nofun⟩

/-- A reading of soil carbon alone. -/
def soilReading (deviceId : String) (hnamed : deviceId ≠ "") (timestamp : Staleness.Instant)
    (ppm : ℚ) (hppm : 0 ≤ ppm) : IoTSensorReading where
  deviceId
  timestamp
  metrics := { noMetrics with soilCarbonPpm := some ppm }
  named := hnamed
  inRange := ⟨nofun, nofun, nofun, fun _ hvalue => Option.some.inj hvalue ▸ hppm, nofun⟩

variable {project : IotProjectConfig} {periodStart periodEnd : String}

theorem coincide_append {readings foreign : List IoTSensorReading}
    (h : ∀ reading ∈ foreign, reading.deviceId ∉ project.deviceIds) :
    Coincide project periodStart periodEnd readings (readings ++ foreign) := by
  have hnone : ownReadings project periodStart periodEnd foreign = [] := by
    apply List.filter_eq_nil_iff.mpr
    intro reading hreading hown
    exact h reading hreading (of_decide_eq_true hown).1
  have happend : ownReadings project periodStart periodEnd (readings ++ foreign) =
      ownReadings project periodStart periodEnd readings := by
    rw [ownReadings, List.filter_append, ← ownReadings, ← ownReadings, hnone, List.append_nil]
  rw [Coincide, happend]

/-- Without valid readings the measurement fails. -/
theorem measure_none {readings : List IoTSensorReading} (h : validReadings readings = []) :
    measure project periodStart periodEnd readings =
      .error (IotNoValidReadingsError project.deviceIds periodStart periodEnd) := by
  rw [measure, h]
  rfl

/-- Without a change of soil carbon the measurement fails. -/
theorem measure_noDelta {readings : List IoTSensorReading} (h : validReadings readings ≠ [])
    (hdelta : meanSoilCarbonDeltaPpm (validReadings readings) = none) :
    measure project periodStart periodEnd readings =
      .error (IotNoSoilCarbonDeltaError project.deviceIds) := by
  rw [measure]
  dsimp only
  rw [if_neg (fun hlength => h (List.length_eq_zero_iff.mp hlength)), hdelta]

/-- With both it gives a report. -/
theorem measure_ok {readings : List IoTSensorReading} {delta : ℚ}
    (h : validReadings readings ≠ [])
    (hdelta : meanSoilCarbonDeltaPpm (validReadings readings) = some delta) :
    ∃ input, measure project periodStart periodEnd readings = .ok input ∧
      input.sensorSampleCount = (validReadings readings).length ∧
      input.carbonSequestered = max 0 (delta * project.areaHa * KG_CO2E_PER_HA_PER_PPM) := by
  rw [measure]
  dsimp only
  rw [if_neg (fun hlength => h (List.length_eq_zero_iff.mp hlength)), hdelta]
  exact ⟨_, rfl, rfl, rfl⟩

/-- A measurement counts the valid readings. -/
theorem sampleCount_of_measure {readings : List IoTSensorReading} {input : BuildReportInput}
    (h : measure project periodStart periodEnd readings = .ok input) :
    validReadings readings ≠ [] ∧ input.sensorSampleCount = (validReadings readings).length := by
  by_cases hvalid : validReadings readings = []
  · rw [measure_none hvalid] at h
    cases h
  · cases hdelta : meanSoilCarbonDeltaPpm (validReadings readings) with
    | none =>
        rw [measure_noDelta hvalid hdelta] at h
        cases h
    | some delta =>
        obtain ⟨input', hinput, hcount, -⟩ :=
          @measure_ok project periodStart periodEnd readings delta hvalid hdelta
        rw [hinput] at h
        obtain rfl := Except.ok.inj h
        exact ⟨hvalid, hcount⟩

/-- Some values have a mean. -/
theorem mean_ne_none {values : List ℚ} (h : values ≠ []) : mean values ≠ none := by
  rw [mean, if_neg fun hlength => h (List.length_eq_zero_iff.mp hlength)]
  exact nofun

/-- Two samples have a change. -/
theorem deltaOf_ne_none {samples : List Sample} (h : 2 ≤ samples.length) :
    deltaOf samples ≠ none := by
  let sorted := samples.mergeSort fun a b => a.time ≤ b.time
  have hlength : 2 ≤ sorted.length := by
    rw [List.length_mergeSort]
    exact h
  have hsorted : sorted ≠ [] := List.ne_nil_of_length_pos (by omega)
  rw [deltaOf, if_pos hlength, List.getLast?_eq_some_getLast hsorted, List.head?_eq_some_head hsorted]
  exact nofun

/-- The samples of a list of one device. -/
theorem collect_samples {entries : List (String × Sample)} (h : entries ≠ []) :
    collect (fun _ => []) (fun samples (entry : String × Sample) => samples ++ [entry.2]) entries =
      some (entries.map Prod.snd) := by
  have hpush (entries : List (String × Sample)) (samples : List Sample) :
      entries.foldl (fun samples entry => samples ++ [entry.2]) samples =
        samples ++ entries.map Prod.snd := by
    induction entries generalizing samples with
    | nil => simp
    | cons entry entries ih => rw [List.foldl_cons, ih, List.map_cons, List.append_assoc]; rfl
  cases entries with
  | nil => exact absurd rfl h
  | cons entry entries => rw [collect, hpush, List.nil_append]

/-- There is a mean change where a device has two samples. -/
theorem delta_ne_none {readings : List IoTSensorReading} {deviceId : String}
    (h : 2 ≤ ((samplesOf readings).filter fun entry => entry.1 = deviceId).length) :
    meanSoilCarbonDeltaPpm readings ≠ none := by
  have hsome : ((samplesOf readings).filter fun entry => entry.1 = deviceId) ≠ [] :=
    List.ne_nil_of_length_pos (by omega)
  have hentry : (deviceId,
      ((samplesOf readings).filter fun entry => entry.1 = deviceId).map Prod.snd) ∈
        byDevice readings := mem_gather.mpr (collect_samples hsome)
  apply mean_ne_none
  intro hnone
  have hdelta := List.filterMap_eq_nil_iff.mp hnone _ hentry
  exact deltaOf_ne_none (by rwa [List.length_map]) hdelta

theorem validReadings_append (readings readings' : List IoTSensorReading) :
    validReadings (readings ++ readings') = validReadings readings ++ validReadings readings' :=
  List.filter_append ..

theorem samplesOf_append (readings readings' : List IoTSensorReading) :
    samplesOf (readings ++ readings') = samplesOf readings ++ samplesOf readings' :=
  List.filterMap_append ..

/-- Whatever the readings are, more readings of other devices change what is
measured. -/
theorem exists_coincide_measure_ne (readings : List IoTSensorReading) :
    ∃ readings', Coincide project periodStart periodEnd readings readings' ∧
      measure project periodStart periodEnd readings' ≠
        measure project periodStart periodEnd readings := by
  obtain ⟨deviceId, hnamed, hfresh⟩ := exists_fresh project.deviceIds
  have hforeign {foreign : List IoTSensorReading}
      (h : ∀ reading ∈ foreign, reading.deviceId = deviceId) :
      Coincide project periodStart periodEnd readings (readings ++ foreign) :=
    coincide_append fun reading hreading => h reading hreading ▸ hfresh
  let water := waterReading deviceId hnamed
  let soil := soilReading deviceId hnamed epoch 0 le_rfl
  have hwater : validReadings (readings ++ [water]) = validReadings readings ++ [water] :=
    validReadings_append readings [water]
  have hsoil : validReadings (readings ++ [soil, soil]) = validReadings readings ++ [soil, soil] :=
    validReadings_append readings [soil, soil]
  cases hmeasure : measure project periodStart periodEnd readings with
  | error failure =>
      -- two samples of the other device make a change where there was none
      refine ⟨readings ++ [soil, soil], hforeign (by simp [soil, soilReading]), ?_⟩
      have hvalid : validReadings (readings ++ [soil, soil]) ≠ [] := by simp [hsoil]
      have hdelta : meanSoilCarbonDeltaPpm (validReadings (readings ++ [soil, soil])) ≠ none := by
        apply @delta_ne_none _ deviceId
        rw [hsoil, samplesOf_append, List.filter_append, List.length_append]
        simp [samplesOf, soil, soilReading]
      obtain ⟨delta, hsome⟩ := Option.ne_none_iff_exists'.mp hdelta
      obtain ⟨input, hinput, -, -⟩ :=
        @measure_ok project periodStart periodEnd _ delta hvalid hsome
      rw [hinput]
      exact nofun
  | ok input =>
      -- one more reading is counted
      refine ⟨readings ++ [water], hforeign (by simp [water, waterReading]), ?_⟩
      intro hsame
      have hcount := (sampleCount_of_measure hmeasure).2
      have hcount' := (sampleCount_of_measure hsame).2
      rw [hcount, hwater, List.length_append] at hcount'
      simp at hcount'

/-- **What a measurement depends on**: it is never the project's own readings
alone.  For every project and period there are readings of other devices that
change the outcome, and they change what is measured whatever the project's
readings are. -/
theorem outcome_depends_on_foreign_readings {Report Failure : Type}
    (build : BuildReportInput → Except Failure Report) (project : IotProjectConfig)
    (periodStart periodEnd : String) :
    ¬ DependsOnOwnData build project periodStart periodEnd ∧
    ∀ readings, ∃ readings', Coincide project periodStart periodEnd readings readings' ∧
      measure project periodStart periodEnd readings' ≠
        measure project periodStart periodEnd readings := by
  refine ⟨?_, exists_coincide_measure_ne⟩
  intro hown
  obtain ⟨deviceId, hnamed, hfresh⟩ := exists_fresh project.deviceIds
  let water := waterReading deviceId hnamed
  have hcoincide : Coincide project periodStart periodEnd [] ([] ++ [water]) := by
    apply coincide_append
    intro reading hreading
    rw [List.mem_singleton.mp hreading]
    exact hfresh
  have hsame := hown [] [water] hcoincide
  have hempty : measure project periodStart periodEnd [] =
      .error (IotNoValidReadingsError project.deviceIds periodStart periodEnd) :=
    measure_none rfl
  have hwater : measure project periodStart periodEnd [water] =
      .error (IotNoSoilCarbonDeltaError project.deviceIds) :=
    measure_noDelta (List.cons_ne_nil water []) rfl
  rw [aggregateIotProject, aggregateIotProject, hempty, hwater] at hsame
  have herror : IotNoValidReadingsError project.deviceIds periodStart periodEnd =
      IotNoSoilCarbonDeltaError project.deviceIds := Sum.inl.inj (Except.error.inj hsame)
  have hname : "IotNoValidReadingsError" = "IotNoSoilCarbonDeltaError" :=
    congrArg IotAdapterError.name herror
  exact absurd hname (by decide)

/-- The change from the first of two samples to the last. -/
theorem deltaOf_pair {first last : Sample} (h : first.time ≤ last.time) :
    deltaOf [first, last] = some (last.ppm - first.ppm) := by
  have hsorted : [first, last].mergeSort (fun a b => a.time ≤ b.time) = [first, last] :=
    List.mergeSort_of_pairwise (by simpa using h)
  rw [deltaOf, hsorted]
  rfl

/-- The project of the sample, with one device. -/
def field : IotProjectConfig where
  projectId := "42"
  deviceIds := ["dev-1"]
  areaHa := 1
  named := by decide
  hasDevices := by decide
  devicesNamed := by decide
  area_pos := one_pos

/-- The first of January. -/
def january : Staleness.Instant := ⟨1735689600000, by decide⟩

/-- The first of February. -/
def february : Staleness.Instant := ⟨1738368000000, by decide⟩

/-- The soil of the field has not changed. -/
def fieldReadings : List IoTSensorReading :=
  [soilReading "dev-1" (by decide) january 100 (by norm_num),
    soilReading "dev-1" (by decide) february 100 (by norm_num)]

/-- Another device, in soil that gained carbon. -/
def otherReadings : List IoTSensorReading :=
  [soilReading "dev-9" (by decide) january 0 le_rfl,
    soilReading "dev-9" (by decide) february 1000 (by norm_num)]

/-- The project's own device has no change. -/
theorem field_delta : meanSoilCarbonDeltaPpm (validReadings fieldReadings) = some 0 := by
  have hdevices : byDevice (validReadings fieldReadings) =
      [("dev-1", [⟨january.ms, 100⟩, ⟨february.ms, 100⟩])] := rfl
  have hdelta : deltaOf [⟨january.ms, 100⟩, ⟨february.ms, 100⟩] = some (100 - 100) :=
    deltaOf_pair (by decide)
  rw [meanSoilCarbonDeltaPpm, hdevices]
  simp only [List.filterMap_cons, hdelta, List.filterMap_nil]
  norm_num [mean]

/-- With the other device's readings the mean change is 500. -/
theorem field_and_other_delta :
    meanSoilCarbonDeltaPpm (validReadings (fieldReadings ++ otherReadings)) = some 500 := by
  have hdevices : byDevice (validReadings (fieldReadings ++ otherReadings)) =
      [("dev-1", [⟨january.ms, 100⟩, ⟨february.ms, 100⟩]),
        ("dev-9", [⟨january.ms, 0⟩, ⟨february.ms, 1000⟩])] := rfl
  have hdelta : deltaOf [⟨january.ms, 100⟩, ⟨february.ms, 100⟩] = some (100 - 100) :=
    deltaOf_pair (by decide)
  have hother : deltaOf [⟨january.ms, 0⟩, ⟨february.ms, 1000⟩] = some (1000 - 0) :=
    deltaOf_pair (by decide)
  rw [meanSoilCarbonDeltaPpm, hdevices]
  simp only [List.filterMap_cons, hdelta, hother, List.filterMap_nil]
  norm_num [mean]

/-- Another device turns no gain of the field into 7.7 tonnes. -/
theorem other_device_counts :
    Coincide field "2025-01-01" "2025-03-31" fieldReadings (fieldReadings ++ otherReadings) ∧
    (∃ input, measure field "2025-01-01" "2025-03-31" fieldReadings = .ok input ∧
      input.carbonSequestered = 0) ∧
    ∃ input, measure field "2025-01-01" "2025-03-31" (fieldReadings ++ otherReadings) = .ok input ∧
      input.carbonSequestered = 7700 := by
  refine ⟨coincide_append (by decide), ?_, ?_⟩
  · obtain ⟨input, hinput, -, hcarbon⟩ := @measure_ok field "2025-01-01" "2025-03-31"
      fieldReadings 0 (List.cons_ne_nil _ _) field_delta
    exact ⟨input, hinput, hcarbon.trans (by norm_num)⟩
  · obtain ⟨input, hinput, -, hcarbon⟩ := @measure_ok field "2025-01-01" "2025-03-31"
      (fieldReadings ++ otherReadings) 500 (List.cons_ne_nil _ _) field_and_other_delta
    refine ⟨input, hinput, hcarbon.trans ?_⟩
    norm_num [field, KG_CO2E_PER_HA_PER_PPM, SOIL_BULK_DENSITY_KG_M3, SOIL_SAMPLE_DEPTH_M,
      KG_C_TO_KG_CO2E]

/-! ## The order of the readings -/

/-- No device has two samples of one time. -/
def Untied (readings : List IoTSensorReading) : Prop :=
  ∀ a ∈ samplesOf readings, ∀ b ∈ samplesOf readings,
    a.1 = b.1 → a.2.time = b.2.time → a = b

/-- The change does not depend on the order of the samples, unless two have one time. -/
theorem deltaOf_perm {samples samples' : List Sample} (h : samples.Perm samples')
    (huntied : ∀ a ∈ samples, ∀ b ∈ samples, a.time = b.time → a = b) :
    deltaOf samples = deltaOf samples' := by
  have hsorted (samples : List Sample) :
      (samples.mergeSort fun a b => a.time ≤ b.time).Pairwise fun a b => a.time ≤ b.time := by
    have htotal : Std.Total fun a b : Sample => a.time ≤ b.time :=
      ⟨fun a b => le_total a.time b.time⟩
    have htrans : IsTrans Sample fun a b => a.time ≤ b.time := ⟨fun _ _ _ hab hbc => hab.trans hbc⟩
    exact List.pairwise_mergeSort' (fun a b : Sample => a.time ≤ b.time) samples
  have hsame : samples.mergeSort (fun a b => a.time ≤ b.time) =
      samples'.mergeSort fun a b => a.time ≤ b.time := by
    refine List.Perm.eq_of_pairwise ?_ (hsorted samples) (hsorted samples')
      ((List.mergeSort_perm _ _).trans (h.trans (List.mergeSort_perm _ _).symm))
    intro a b ha hb hab hba
    exact huntied a (List.mem_mergeSort.mp ha) b (h.mem_iff.mpr (List.mem_mergeSort.mp hb))
      (le_antisymm hab hba)
  rw [deltaOf, deltaOf, hsame]

/-- The mean does not depend on the order. -/
theorem mean_perm {values values' : List ℚ} (h : values.Perm values') :
    mean values = mean values' := by
  rw [mean, mean, h.length_eq, h.sum_eq]

/-- Neither does the mean change, unless two samples of a device have one time. -/
theorem meanSoilCarbonDeltaPpm_perm {readings readings' : List IoTSensorReading}
    (h : readings.Perm readings') (huntied : Untied readings) :
    meanSoilCarbonDeltaPpm readings = meanSoilCarbonDeltaPpm readings' := by
  have hsamples : (samplesOf readings).Perm (samplesOf readings') := h.filterMap _
  have hdeltas : ((byDevice readings).map fun entry => deltaOf entry.2).Perm
      ((byDevice readings').map fun entry => deltaOf entry.2) := by
    apply perm_map_gather deltaOf
    intro deviceId
    have hdevice := hsamples.filter fun entry => decide (entry.1 = deviceId)
    by_cases hnil : ((samplesOf readings).filter fun entry => entry.1 = deviceId) = []
    · rw [hnil] at hdevice ⊢
      rw [List.nil_perm.mp hdevice]
    · have hnil' : ((samplesOf readings').filter fun entry => entry.1 = deviceId) ≠ [] :=
        fun h' => hnil (hdevice.trans (List.Perm.of_eq h')).eq_nil
      rw [collect_samples hnil, collect_samples hnil', Option.map_some, Option.map_some]
      congr 1
      apply deltaOf_perm (hdevice.map Prod.snd)
      intro a ha b hb htime
      obtain ⟨entry, hentry, rfl⟩ := List.mem_map.mp ha
      obtain ⟨entry', hentry', rfl⟩ := List.mem_map.mp hb
      obtain ⟨hmem, hthis⟩ := List.mem_filter.mp hentry
      obtain ⟨hmem', hthis'⟩ := List.mem_filter.mp hentry'
      have hboth := (of_decide_eq_true hthis).trans (of_decide_eq_true hthis').symm
      rw [huntied entry hmem entry' hmem' hboth htime]
  have hfilter := hdeltas.filterMap id
  rw [List.filterMap_map, List.filterMap_map] at hfilter
  exact mean_perm hfilter

/-- Neither do the means of the readings. -/
theorem aggregateSensorReadings_perm {readings readings' : List IoTSensorReading}
    (h : readings.Perm readings') :
    aggregateSensorReadings readings = aggregateSensorReadings readings' := by
  rw [aggregateSensorReadings, aggregateSensorReadings, mean_perm (h.filterMap _),
    mean_perm (h.filterMap fun reading => reading.metrics.temperature),
    mean_perm (h.filterMap fun reading => reading.metrics.humidity),
    mean_perm (h.filterMap fun reading => reading.metrics.soilCarbonPpm),
    mean_perm (h.filterMap fun reading => reading.metrics.waterTableCm), h.length_eq,
    (h.map IoTSensorReading.deviceId).dedup.length_eq]

/-- Without ties the order of the readings does not matter. -/
theorem measure_perm {readings readings' : List IoTSensorReading} (h : readings.Perm readings')
    (huntied : Untied readings) :
    measure project periodStart periodEnd readings =
      measure project periodStart periodEnd readings' := by
  have hvalid : (validReadings readings).Perm (validReadings readings') := h.filter _
  have hsub : ∀ entry ∈ samplesOf (validReadings readings), entry ∈ samplesOf readings := by
    intro entry hentry
    obtain ⟨reading, hreading, hsample⟩ := List.mem_filterMap.mp hentry
    exact List.mem_filterMap.mpr ⟨reading, (List.mem_filter.mp hreading).1, hsample⟩
  have huntied' : Untied (validReadings readings) :=
    fun a ha b hb => huntied a (hsub a ha) b (hsub b hb)
  rw [measure, measure, hvalid.length_eq, meanSoilCarbonDeltaPpm_perm hvalid huntied',
    aggregateSensorReadings_perm hvalid]

/-- Where a network returns the project's own readings alone, and no two samples
of a device at one time, the outcome is the same in every order of them. -/
theorem outcome_of_own_readings {Report Failure : Type}
    (build : BuildReportInput → Except Failure Report) {readings readings' : List IoTSensorReading}
    (hown : ownReadings project periodStart periodEnd readings = readings)
    (hown' : ownReadings project periodStart periodEnd readings' = readings')
    (huntied : Untied readings) (h : Coincide project periodStart periodEnd readings readings') :
    aggregateIotProject build project periodStart periodEnd readings =
      aggregateIotProject build project periodStart periodEnd readings' := by
  rw [Coincide, hown, hown'] at h
  rw [aggregateIotProject, aggregateIotProject, measure_perm h huntied]

end EcoMint.Iot
