import EcoMint.Json

/-!
# The checksums of audit exports

`exportBond` and `exportProject` put a payload together and store the SHA-256 of
`JSON.stringify(payload, Object.keys(payload).sort())` in it.  The second
argument was meant to sort the fields, but an array in that place is the list of
the property names to keep, in every object at any depth.  The names on it are
those of the payload's own parts, so that each nested object is hashed as if it
had no properties: of most parts only the number of entries counts.
-/

namespace EcoMint

open Json (stringify pick select)

/-! ## The payloads -/

/-- `generationMetadata`, before the checksum is added. -/
structure GenerationMetadata where
  timestamp : String
  exporterAddress : String
  version : String

/-- The metadata as JSON. -/
def GenerationMetadata.toJson (m : GenerationMetadata) : Json := .obj [
  ("timestamp", .str m.timestamp), ("exporterAddress", .str m.exporterAddress),
  ("version", .str m.version)]

/-- A natural number as JSON. -/
def natJson (n : Nat) : Json := .num (Json.ofNat n)

/-- `bondData`; a credit type and a status are what the chain's decoder returns. -/
structure BondData where
  id : Nat
  projectRegistryId : String
  faceValue : String
  couponSchedule : List Nat
  creditType : Json
  maturityDate : Nat
  totalSupply : String
  totalSubscribed : String
  status : Json
  createdAt : String

/-- The bond's data as JSON. -/
def BondData.toJson (b : BondData) : Json := .obj [
  ("id", natJson b.id), ("projectRegistryId", .str b.projectRegistryId),
  ("faceValue", .str b.faceValue), ("couponSchedule", .arr (b.couponSchedule.map natJson)),
  ("creditType", b.creditType), ("maturityDate", natJson b.maturityDate),
  ("totalSupply", .str b.totalSupply), ("totalSubscribed", .str b.totalSubscribed),
  ("status", b.status), ("createdAt", .str b.createdAt)]

/-- An event; the issue has the total supply in its details. -/
structure LifecycleEvent where
  event : String
  timestamp : String
  totalSupply : Option String

/-- An event as JSON. -/
def LifecycleEvent.toJson (e : LifecycleEvent) : Json := .obj [
  ("event", .str e.event), ("timestamp", .str e.timestamp),
  ("details", .obj (e.totalSupply.toList.map fun supply => ("totalSupply", .str supply)))]

/-- A holder with the balance. -/
structure HolderBalance where
  address : String
  balance : String

/-- A holder as JSON. -/
def HolderBalance.toJson (h : HolderBalance) : Json := .obj [
  ("address", .str h.address), ("balance", .str h.balance)]

/-- A period that was paid. -/
structure CouponDistribution where
  periodIndex : Nat
  startTime : Nat
  endTime : Nat
  totalCreditsEarned : String
  reportId : Nat
  undistributed : String

/-- A period as JSON. -/
def CouponDistribution.toJson (d : CouponDistribution) : Json := .obj [
  ("periodIndex", natJson d.periodIndex), ("startTime", natJson d.startTime),
  ("endTime", natJson d.endTime), ("totalCreditsEarned", .str d.totalCreditsEarned),
  ("reportId", natJson d.reportId), ("undistributed", .str d.undistributed)]

/-- A retirement, as it is exported. -/
structure RetirementEntry where
  id : Nat
  holder : String
  amount : String
  creditType : Json
  retiredAt : Nat
  certificateIpfsHash : String

/-- A retirement as JSON. -/
def RetirementEntry.toJson (r : RetirementEntry) : Json := .obj [
  ("id", natJson r.id), ("holder", .str r.holder), ("amount", .str r.amount),
  ("creditType", r.creditType), ("retiredAt", natJson r.retiredAt),
  ("certificateIpfsHash", .str r.certificateIpfsHash)]

/-- The payload of `exportBond`. -/
structure BondPayload where
  generationMetadata : GenerationMetadata
  bond : BondData
  lifecycleEvents : List LifecycleEvent
  holders : List HolderBalance
  couponDistributions : List CouponDistribution
  retirements : List RetirementEntry

/-- The payload of a bond as JSON. -/
def BondPayload.toJson (p : BondPayload) : Json := .obj [
  ("generationMetadata", p.generationMetadata.toJson), ("bond", p.bond.toJson),
  ("lifecycleEvents", .arr (p.lifecycleEvents.map LifecycleEvent.toJson)),
  ("holders", .arr (p.holders.map HolderBalance.toJson)),
  ("couponDistributions", .arr (p.couponDistributions.map CouponDistribution.toJson)),
  ("retirements", .arr (p.retirements.map RetirementEntry.toJson))]

/-- `projectData`; what comes from the metadata on IPFS is any JSON. -/
structure ProjectData where
  id : Nat
  ownerAddress : String
  metadataIpfsHash : String
  status : Json
  methodology : Json
  country : Json
  name : Json
  totalAreaHa : Json
  carbonSequestrationEstimate : Json

/-- The project's data as JSON. -/
def ProjectData.toJson (p : ProjectData) : Json := .obj [
  ("id", natJson p.id), ("ownerAddress", .str p.ownerAddress),
  ("metadataIpfsHash", .str p.metadataIpfsHash), ("status", p.status),
  ("methodology", p.methodology), ("country", p.country), ("name", p.name),
  ("totalAreaHa", p.totalAreaHa),
  ("carbonSequestrationEstimate", p.carbonSequestrationEstimate)]

/-- A report, as it is exported. -/
structure ReportEntry where
  id : Nat
  projectId : String
  periodStart : Nat
  periodEnd : Nat
  carbonSequestered : String
  methodology : Json
  providerSignature : String
  ipfsEvidenceHash : String
  status : Json

/-- A report as JSON. -/
def ReportEntry.toJson (r : ReportEntry) : Json := .obj [
  ("id", natJson r.id), ("projectId", .str r.projectId), ("periodStart", natJson r.periodStart),
  ("periodEnd", natJson r.periodEnd), ("carbonSequestered", .str r.carbonSequestered),
  ("methodology", r.methodology), ("providerSignature", .str r.providerSignature),
  ("ipfsEvidenceHash", .str r.ipfsEvidenceHash), ("status", r.status)]

/-- The payload of `exportProject`. -/
structure ProjectPayload where
  generationMetadata : GenerationMetadata
  project : ProjectData
  documents : List String
  reports : List ReportEntry
  relatedBonds : List Nat

/-- The payload of a project as JSON. -/
def ProjectPayload.toJson (p : ProjectPayload) : Json := .obj [
  ("generationMetadata", p.generationMetadata.toJson), ("project", p.project.toJson),
  ("documents", .arr (p.documents.map Json.str)),
  ("reports", .arr (p.reports.map ReportEntry.toJson)),
  ("relatedBonds", .arr (p.relatedBonds.map natJson))]

/-! ## What is hashed -/

/-- The property names of a payload, sorted. -/
def sortedKeys (payload : Json) : List String := payload.keys.insertionSort (· ≤ ·)

/-- `JSON.stringify(payload, Object.keys(payload).sort())` -/
def sortedData (payload : Json) : String := stringify (pick (sortedKeys payload) payload)

/-- The string that `exportBond` hashes. -/
def exportBondData (p : BondPayload) : String := sortedData p.toJson

/-- The string that `exportProject` hashes. -/
def exportProjectData (p : ProjectPayload) : String := sortedData p.toJson

/-- The parts of a bond's payload, sorted. -/
def bondKeys : List String :=
  ["bond", "couponDistributions", "generationMetadata", "holders", "lifecycleEvents", "retirements"]

/-- The parts of a project's payload, sorted. -/
def projectKeys : List String :=
  ["documents", "generationMetadata", "project", "relatedBonds", "reports"]

/-- The keys that the replacer allows in a bond's payload. -/
theorem sortedKeys_bond (p : BondPayload) : sortedKeys p.toJson = bondKeys := by
  have hkeys : p.toJson.keys = ["generationMetadata", "bond", "lifecycleEvents", "holders",
    "couponDistributions", "retirements"] := rfl
  rw [sortedKeys, hkeys]
  simp [List.insertionSort, bondKeys]

/-- The keys that the replacer allows in a project's payload. -/
theorem sortedKeys_project (p : ProjectPayload) : sortedKeys p.toJson = projectKeys := by
  have hkeys : p.toJson.keys = ["generationMetadata", "project", "documents", "reports",
    "relatedBonds"] := rfl
  rw [sortedKeys, hkeys]
  simp [List.insertionSort, projectKeys]

/-! ## What is left of a payload -/

/-- The parts that are lists of objects are left as lists of empty objects. -/
theorem pickItems_of_foreign {α : Type} {allowed : List String} {f : α → Json}
    (h : ∀ x, pick allowed (f x) = .obj []) (l : List α) :
    Json.pickItems allowed (l.map f) = List.replicate l.length (.obj []) := by
  rw [Json.pickItems_map, List.map_congr_left fun x _ => h x, List.map_const']

/-- Of the bond's data nothing is left. -/
theorem pick_bondData (b : BondData) : pick bondKeys b.toJson = .obj [] :=
  Json.pick_obj_of_foreign ["id", "projectRegistryId", "faceValue", "couponSchedule", "creditType",
    "maturityDate", "totalSupply", "totalSubscribed", "status", "createdAt"] rfl (by simp [bondKeys])

/-- Of an event nothing is left. -/
theorem pick_lifecycleEvent (e : LifecycleEvent) : pick bondKeys e.toJson = .obj [] :=
  Json.pick_obj_of_foreign ["event", "timestamp", "details"] rfl (by simp [bondKeys])

/-- Of a holder nothing is left. -/
theorem pick_holderBalance (h : HolderBalance) : pick bondKeys h.toJson = .obj [] :=
  Json.pick_obj_of_foreign ["address", "balance"] rfl (by simp [bondKeys])

/-- Of a period nothing is left. -/
theorem pick_couponDistribution (d : CouponDistribution) : pick bondKeys d.toJson = .obj [] :=
  Json.pick_obj_of_foreign ["periodIndex", "startTime", "endTime", "totalCreditsEarned", "reportId",
    "undistributed"] rfl (by simp [bondKeys])

/-- Of a retirement nothing is left. -/
theorem pick_retirementEntry (r : RetirementEntry) : pick bondKeys r.toJson = .obj [] :=
  Json.pick_obj_of_foreign ["id", "holder", "amount", "creditType", "retiredAt",
    "certificateIpfsHash"] rfl (by simp [bondKeys])

/-- Of the project's data nothing is left. -/
theorem pick_projectData (p : ProjectData) : pick projectKeys p.toJson = .obj [] :=
  Json.pick_obj_of_foreign ["id", "ownerAddress", "metadataIpfsHash", "status", "methodology",
    "country", "name", "totalAreaHa", "carbonSequestrationEstimate"] rfl (by simp [projectKeys])

/-- Of a report nothing is left. -/
theorem pick_reportEntry (r : ReportEntry) : pick projectKeys r.toJson = .obj [] :=
  Json.pick_obj_of_foreign ["id", "projectId", "periodStart", "periodEnd", "carbonSequestered",
    "methodology", "providerSignature", "ipfsEvidenceHash", "status"] rfl (by simp [projectKeys])

/-- Of the metadata nothing is left in either payload. -/
theorem pick_generationMetadata (m : GenerationMetadata) :
    pick bondKeys m.toJson = .obj [] ∧ pick projectKeys m.toJson = .obj [] :=
  ⟨Json.pick_obj_of_foreign ["timestamp", "exporterAddress", "version"] rfl (by simp [bondKeys]),
    Json.pick_obj_of_foreign ["timestamp", "exporterAddress", "version"] rfl (by simp [projectKeys])⟩

/-- What is hashed of a bond's payload: how many entries its lists have. -/
theorem pick_bond (p : BondPayload) : pick bondKeys p.toJson = .obj [
    ("bond", .obj []),
    ("couponDistributions", .arr (List.replicate p.couponDistributions.length (.obj []))),
    ("generationMetadata", .obj []),
    ("holders", .arr (List.replicate p.holders.length (.obj []))),
    ("lifecycleEvents", .arr (List.replicate p.lifecycleEvents.length (.obj []))),
    ("retirements", .arr (List.replicate p.retirements.length (.obj [])))] := by
  unfold BondPayload.toJson
  simp only [pick, Json.pickFields, pick_bondData, pickItems_of_foreign pick_couponDistribution,
    pickItems_of_foreign pick_holderBalance, pickItems_of_foreign pick_lifecycleEvent,
    pickItems_of_foreign pick_retirementEntry, (pick_generationMetadata p.generationMetadata).1]
  rfl

/-- What is hashed of a project's payload: its documents, its bonds, and how
many reports it has. -/
theorem pick_project (p : ProjectPayload) : pick projectKeys p.toJson = .obj [
    ("documents", .arr (p.documents.map Json.str)), ("generationMetadata", .obj []),
    ("project", .obj []), ("relatedBonds", .arr (p.relatedBonds.map natJson)),
    ("reports", .arr (List.replicate p.reports.length (.obj [])))] := by
  unfold ProjectPayload.toJson
  simp only [pick, Json.pickFields, pick_projectData, pickItems_of_foreign pick_reportEntry,
    (pick_generationMetadata p.generationMetadata).2, Json.pickItems_map, natJson]
  rfl

/-! ## What the checksums bind -/

/-- The lists of two bond payloads have the same lengths. -/
structure BondPayload.SameCounts (p p' : BondPayload) : Prop where
  lifecycleEvents : p.lifecycleEvents.length = p'.lifecycleEvents.length
  holders : p.holders.length = p'.holders.length
  couponDistributions : p.couponDistributions.length = p'.couponDistributions.length
  retirements : p.retirements.length = p'.retirements.length

/-- Two project payloads have the same documents and bonds, and equally many
reports. -/
structure ProjectPayload.SameLinks (p p' : ProjectPayload) : Prop where
  documents : p.documents = p'.documents
  relatedBonds : p.relatedBonds = p'.relatedBonds
  reports : p.reports.length = p'.reports.length

/-- Numbers have texts of their own. -/
theorem natJson_injective : Function.Injective natJson := by
  intro m n h
  exact Json.ofNat_inj.mp (Json.num.inj h)

/-- Texts differ where their values do. -/
theorem str_injective : Function.Injective Json.str := fun _ _ h => Json.str.inj h

/-- The hashed text of a bond says how long its lists are, and no more. -/
theorem exportBondData_eq_iff (p p' : BondPayload) :
    exportBondData p = exportBondData p' ↔ p.SameCounts p' := by
  unfold exportBondData sortedData
  rw [sortedKeys_bond, sortedKeys_bond, pick_bond, pick_bond, Json.stringify_inj]
  constructor
  · intro h
    simp at h
    obtain ⟨hcoupons, hholders, hevents, hretirements⟩ := h
    exact ⟨hevents, hholders, hcoupons, hretirements⟩
  · intro h
    rw [h.lifecycleEvents, h.holders, h.couponDistributions, h.retirements]

/-- The hashed text of a project says its documents, its bonds and how many reports
there are. -/
theorem exportProjectData_eq_iff (p p' : ProjectPayload) :
    exportProjectData p = exportProjectData p' ↔ p.SameLinks p' := by
  unfold exportProjectData sortedData
  rw [sortedKeys_project, sortedKeys_project, pick_project, pick_project, Json.stringify_inj]
  constructor
  · intro h
    simp at h
    obtain ⟨hdocuments, hbonds, hreports⟩ := h
    exact ⟨str_injective.list_map hdocuments, natJson_injective.list_map hbonds, hreports⟩
  · intro h
    rw [h.documents, h.relatedBonds, h.reports]

/-- **What the checksums bind.**  A changed payload has another hashed string
exactly if the change shows in the length of a list, in a document or in a bond
id; and so it is with the checksum, if the hash is injective. -/
theorem export_checksum_binds_iff (p p' : BondPayload) (q q' : ProjectPayload)
    (sha256 : String → String) :
    ((p ≠ p' → exportBondData p ≠ exportBondData p') ↔ (p = p' ∨ ¬ p.SameCounts p')) ∧
    ((q ≠ q' → exportProjectData q ≠ exportProjectData q') ↔ (q = q' ∨ ¬ q.SameLinks q')) ∧
    (Function.Injective sha256 →
      (sha256 (exportBondData p) = sha256 (exportBondData p') ↔ p.SameCounts p') ∧
      (sha256 (exportProjectData q) = sha256 (exportProjectData q') ↔ q.SameLinks q')) := by
  refine ⟨?_, ?_, fun hsha256 => ⟨?_, ?_⟩⟩
  · rw [Ne, Ne, exportBondData_eq_iff]
    exact or_iff_not_imp_left.symm
  · rw [Ne, Ne, exportProjectData_eq_iff]
    exact or_iff_not_imp_left.symm
  · rw [hsha256.eq_iff, exportBondData_eq_iff]
  · rw [hsha256.eq_iff, exportProjectData_eq_iff]

def sampleMetadata : GenerationMetadata := ⟨"2026-01-01T00:00:00.000Z", "system", "1.0.0"⟩

def sampleBondData : BondData :=
  ⟨1, "00", "1000", [100], .str "Carbon", 200, "5000", "500", natJson 0, "2026-01-01T00:00:00.000Z"⟩

/-- The export of a bond with one holder, who has the given balance. -/
def sampleBondExport (balance : String) : BondPayload :=
  ⟨sampleMetadata, sampleBondData, [⟨"ISSUED", "2026-01-01T00:00:00.000Z", some "5000"⟩],
    [⟨"GA", balance⟩], [], []⟩

/-- A forged balance is hashed to the same checksum. -/
theorem export_checksum_misses_balance :
    ¬ ((∀ p p' : BondPayload, p ≠ p' → exportBondData p ≠ exportBondData p') ∧
      ∀ p p' : ProjectPayload, p ≠ p' → exportProjectData p ≠ exportProjectData p') := by
  intro h
  refine h.1 (sampleBondExport "500") (sampleBondExport "900000") ?_
    ((exportBondData_eq_iff _ _).mpr ⟨rfl, rfl, rfl, rfl⟩)
  intro heq
  have hholders := congrArg (fun p => p.holders.map HolderBalance.balance) heq
  revert hholders
  decide

end EcoMint
