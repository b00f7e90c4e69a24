import EcoMint.Cid
import EcoMint.ExportChecksum
import EcoMint.NonceUse
import EcoMint.ScVal

/-!
# The audit export of a project

`ProjectsService.exportProject` collects what belongs to a project from three
contracts.  The registry stores a project under a key made from its number, and
the bond issuer and the oracle consumer name it by that key; the export looks
for reports and bonds under the project's metadata hash instead.  It also reads
the fields of a report at the places where an older struct had them, and skips
whatever it cannot read, so that not one report is ever exported.
-/

namespace EcoMint

/-! ## What the contracts return -/

/-- A project as the registry returns it. -/
def ProjectRegistry.Project.toScVal (variants : VariantForm)
    (project : ProjectRegistry.Project) : ScVal := .vec [
  .u64 project.id, .address project.owner, project.metadataIpfsHash.toScVal,
  project.status.toScVal variants, .symbol project.methodology, .symbol project.country]

/-- A report as the oracle returns it. -/
def OracleConsumer.Report.toScVal (variants : VariantForm) (report : OracleConsumer.Report) :
    ScVal := .vec [
  .u64 report.id, .address report.provider, report.projectId.toScVal, .u64 report.periodStart,
  .u64 report.periodEnd, .i128 report.carbonSequestered, report.biodiversity.toScVal,
  .symbol report.methodology, report.ipfsEvidenceHash.toScVal, report.status.toScVal variants,
  .u64 report.submittedAt, .u64 report.verifiedAt,
  match report.providerStakeAtVerification with
  | some stake => .i128 stake
  | none => .void]

/-- `simulateCall`: what a contract function returns for the arguments, or
nothing where it throws. -/
abbrev ChainReader := Contract → String → List ScVal → Option ScVal

/-- The reads of a chain that answers. -/
def Chain.read (chain : Chain) (variants : VariantForm) : ChainReader
  | .projectRegistry, "get_project", [.u64 projectId] =>
      (ProjectRegistry.getProject chain.registry projectId).toOption.map
        (ProjectRegistry.Project.toScVal variants)
  | .oracleConsumer, "get_project_reports", [projectId] =>
      (projectId.asBytesN 32).map fun projectId =>
        .vec ((OracleConsumer.getProjectReports chain.world.oracle projectId).map ScVal.u64)
  | .oracleConsumer, "get_report", [.u64 reportId] =>
      (OracleConsumer.getReport chain.world.oracle reportId).toOption.map
        (OracleConsumer.Report.toScVal variants)
  | .bondIssuer, "bond_count", [] => some (.u64 chain.world.issuer.bondCount)
  | .bondIssuer, "get_bond", [.u64 bondId] =>
      (BondIssuer.getBond chain.world.issuer bondId).toOption.map (BondConfig.toScVal variants)
  | _, _, _ => none

/-! ## The export -/

mutual

/-- `JSON.stringify` of a value; a bigint makes it throw. -/
def Native.toJson : Native → Option Json
  | .null => some .null
  | .number value => some (natJson value)
  | .bigint _ => none
  | .text value => some (.str value)
  | .buffer bytes => some (.obj [("type", .str "Buffer"),
      ("data", .arr (bytes.map fun byte => natJson byte.toNat))])
  | .array items => (Native.toJsons items).map Json.arr

/-- The JSON of an array's items, if every one has one. -/
def Native.toJsons : List Native → Option (List Json)
  | [] => some []
  | item :: rest => do
      let json ← item.toJson
      let jsons ← Native.toJsons rest
      return json :: jsons

end

/-- The value counts as true in a condition. -/
def truthy : Json → Bool
  | .null => false
  | .bool value => value
  | .num value => value.text ≠ ['0']
  | .str value => value ≠ ""
  | .arr _ => true
  | .obj _ => true

/-- `metadata[key] || fallback` -/
def metadataOr (metadata : List (String × Json)) (key : String) (fallback : Json) : Json :=
  match metadata.lookup key with
  | some value => if truthy value then value else fallback
  | none => fallback

/-- What the export is given from outside. -/
structure ExportContext where
  /-- the text of an address -/
  addressText : Address → String
  /-- how the contracts' statuses come back -/
  variants : VariantForm
  /-- `new Date().toISOString()` -/
  now : String
  /-- the JSON object behind an IPFS hash, unless the gateway fails -/
  getContent : String → Option (List (String × Json))
  /-- the cached documents of a project -/
  documents : Nat → List String
  sha256Hex : String → String

/-- A report as the loop pushes it. -/
structure ReportRow where
  id : Nat
  projectId : String
  periodStart : Nat
  periodEnd : Nat
  carbonSequestered : String
  methodology : Native
  providerSignature : String
  ipfsEvidenceHash : String
  status : Native

/-- A report's row as it goes into the export. -/
def ReportRow.toEntry (row : ReportRow) : Option ReportEntry := do
  let methodology ← row.methodology.toJson
  let status ← row.status.toJson
  return {
    id := row.id, projectId := row.projectId, periodStart := row.periodStart
    periodEnd := row.periodEnd, carbonSequestered := row.carbonSequestered, methodology
    providerSignature := row.providerSignature, ipfsEvidenceHash := row.ipfsEvidenceHash, status }

section

variable (ctx : ExportContext) (read : ChainReader)

/-- The fields of a struct that a contract returns. -/
def readFields (contract : Contract) (method : String) (args : List ScVal) :
    Option (List Native) :=
  (read contract method args).bind fun value => (scValToNative ctx.addressText value).items

/-- Bytes as lower-case hexadecimal text. -/
def hexText (bytes : List UInt8) : String := String.ofList (toHex bytes)

/-- The body of the loop over the reports; nothing where it throws. -/
def readReport (reportId : Native) : Option ReportRow := do
  let id ← reportId.toInteger
  let report ← readFields ctx read .oracleConsumer "get_report" [.u64 id.toNat]
  let projectId ← Native.toBuffer (← report[0]?)
  let periodStart ← Native.toCount (← report[1]?)
  let periodEnd ← Native.toCount (← report[2]?)
  let carbonSequestered ← Native.toInteger (← report[3]?)
  let methodology ← report[4]?
  let providerSignature ← Native.toBuffer (← report[5]?)
  let ipfsEvidenceHash ← Native.toBuffer (← report[6]?)
  let status ← report[7]?
  return {
    id := id.toNat, projectId := hexText projectId, periodStart, periodEnd
    carbonSequestered := toString carbonSequestered, methodology
    providerSignature := hexText providerSignature, ipfsEvidenceHash := hexText ipfsEvidenceHash
    status }

/-- The reports; one that cannot be read is skipped. -/
def collectReports (metadataHash : List UInt8) : List ReportRow :=
  match readFields ctx read .oracleConsumer "get_project_reports" [.bytes metadataHash] with
  | some ids => ids.filterMap (readReport ctx read)
  | none => []

/-- The project in the configuration of a bond. -/
def readBondProject (bondId : Nat) : Option (List UInt8) := do
  let config ← readFields ctx read .bondIssuer "get_bond" [.u64 bondId]
  Native.toBuffer (← config[0]?)

/-- The bonds; one that cannot be read is skipped. -/
def collectBonds (metadataHash : List UInt8) : List Nat :=
  match (read .bondIssuer "bond_count" []).bind
      (fun value => (scValToNative ctx.addressText value).toCount) with
  | some totalBonds =>
      (List.range' 1 totalBonds).filter fun bondId =>
        (readBondProject ctx read bondId).any fun projectId =>
          hexText projectId = hexText metadataHash
  | none => []

/-- `projectData`, from the fields of the project. -/
def readProjectData (projectId : Nat) (project : List Native) (metadataHash : List UInt8) :
    Option ProjectData := do
  let metadataIpfsHash := decodeCid metadataHash
  let metadata := (ctx.getContent metadataIpfsHash).getD []
  let id ← Native.toCount (← project[0]?)
  let ownerAddress ← Native.toText (← project[1]?)
  let status ← Native.toJson (← project[3]?)
  let methodology ← Native.toJson (← project[4]?)
  let country ← Native.toJson (← project[5]?)
  return {
    id, ownerAddress, metadataIpfsHash, status, methodology, country
    name := metadataOr metadata "name" (.str ("Project #" ++ toString projectId))
    totalAreaHa := metadataOr metadata "totalAreaHa" (natJson 0)
    carbonSequestrationEstimate := metadataOr metadata "carbonSequestrationEstimate" (natJson 0) }

/-- The payload of an export, and its checksum. -/
def exportProject (projectId : Nat) (auditorAddress : String) :
    Option (ProjectPayload × String) := do
  let project ← readFields ctx read .projectRegistry "get_project" [.u64 projectId]
  if project.isEmpty then none
  let metadataHash ← Native.toBuffer (← project[2]?)
  let projectData ← readProjectData ctx projectId project metadataHash
  let reports ← (collectReports ctx read metadataHash).mapM ReportRow.toEntry
  let payload : ProjectPayload := {
    generationMetadata := {
      timestamp := ctx.now
      exporterAddress := if auditorAddress = "" then "system" else auditorAddress
      version := "1.0.0" }
    project := projectData
    documents := ctx.documents projectId
    reports
    relatedBonds := collectBonds ctx read metadataHash }
  return (payload, ctx.sha256Hex (exportProjectData payload))

end

/-! ## What the export finds -/

theorem BytesN.bytes_inj {n : Nat} {b b' : BytesN n} : b.bytes = b'.bytes ↔ b = b' := by
  cases b
  cases b'
  simp

theorem hexText_inj {bytes bytes' : List UInt8} : hexText bytes = hexText bytes' ↔
    bytes = bytes' := by
  rw [hexText, hexText, String.ofList_inj, toHex_inj]

section

variable (ctx : ExportContext) (chain : Chain)

/-- What the export reads when it asks the registry for a project. -/
theorem Chain.read_getProject (variants : VariantForm) (projectId : Nat) :
    chain.read variants .projectRegistry "get_project" [.u64 projectId] =
      (ProjectRegistry.getProject chain.registry projectId).toOption.map
        (ProjectRegistry.Project.toScVal variants) := rfl

/-- What the export reads when it asks the oracle for a report. -/
theorem Chain.read_getReport (variants : VariantForm) (reportId : Nat) :
    chain.read variants .oracleConsumer "get_report" [.u64 reportId] =
      (OracleConsumer.getReport chain.world.oracle reportId).toOption.map
        (OracleConsumer.Report.toScVal variants) := rfl

/-- What the export reads when it asks the issuer for a bond. -/
theorem Chain.read_getBond (variants : VariantForm) (bondId : Nat) :
    chain.read variants .bondIssuer "get_bond" [.u64 bondId] =
      (BondIssuer.getBond chain.world.issuer bondId).toOption.map
        (BondConfig.toScVal variants) := rfl

/-- No report of a chain can be read: its first field is its number. -/
theorem readReport_chain (reportId : Native) :
    readReport ctx (chain.read ctx.variants) reportId = none := by
  unfold readReport
  cases reportId.toInteger with
  | none => rfl
  | some id =>
      rw [Option.bind_eq_bind, Option.bind_some, readFields, Chain.read_getReport]
      cases (OracleConsumer.getReport chain.world.oracle id.toNat).toOption with
      | none => rfl
      | some report => rfl

/-- The export's scan of the oracle finds no report. -/
theorem collectReports_chain (metadataHash : List UInt8) :
    collectReports ctx (chain.read ctx.variants) metadataHash = [] := by
  unfold collectReports
  split
  · exact List.filterMap_eq_nil_iff.mpr fun reportId _ => readReport_chain ctx chain reportId
  · rfl

/-- The export reads a bond's project from the issuer. -/
theorem readBondProject_chain (bondId : Nat) :
    readBondProject ctx (chain.read ctx.variants) bondId =
      (chain.world.issuer.bondConfig.get bondId).map fun config => config.projectId.bytes := by
  rw [readBondProject, readFields, Chain.read_getBond, BondIssuer.getBond]
  cases chain.world.issuer.bondConfig.get bondId with
  | none => rfl
  | some config => rfl

/-- The bonds that are found are those with the hash for their project, among
the numbers given out. -/
theorem mem_collectBonds {metadataHash : BytesN 32} {bondId : Nat} :
    bondId ∈ collectBonds ctx (chain.read ctx.variants) metadataHash.bytes ↔
      (1 ≤ bondId ∧ bondId ≤ chain.world.issuer.bondCount) ∧
        ∃ config, chain.world.issuer.bondConfig.get bondId = some config ∧
          config.projectId = metadataHash := by
  have hcollect : collectBonds ctx (chain.read ctx.variants) metadataHash.bytes =
      (List.range' 1 chain.world.issuer.bondCount).filter fun bondId =>
        (readBondProject ctx (chain.read ctx.variants) bondId).any fun projectId =>
          hexText projectId = hexText metadataHash.bytes := rfl
  rw [hcollect, List.mem_filter, List.mem_range'_1, readBondProject_chain]
  have hrange : bondId < 1 + chain.world.issuer.bondCount ↔
      bondId ≤ chain.world.issuer.bondCount := by omega
  rw [hrange]
  cases chain.world.issuer.bondConfig.get bondId with
  | none => simp
  | some config => simp [hexText_inj, BytesN.bytes_inj]

/-- The bonds collected are in ascending order, so none comes twice. -/
theorem pairwise_collectBonds (metadataHash : List UInt8) :
    (collectBonds ctx (chain.read ctx.variants) metadataHash).Pairwise (· < ·) := by
  unfold collectBonds
  split
  · exact (List.pairwise_lt_range' 1).filter _
  · exact .nil

end

/-! ## Complete exports -/

/-- The entry says about the report what an audit asks for. -/
def ReportEntry.Describes (entry : ReportEntry) (ctx : ExportContext)
    (report : OracleConsumer.Report) : Prop :=
  entry.periodStart = report.periodStart ∧ entry.periodEnd = report.periodEnd ∧
    entry.carbonSequestered = toString report.carbonSequestered ∧
    (scValToNative ctx.addressText (report.status.toScVal ctx.variants)).toJson =
      some entry.status

/-- The payload lists what the contracts hold under a project's key: its bonds in
ascending order, and each of its reports once. -/
structure ProjectPayload.Complete (payload : ProjectPayload) (ctx : ExportContext) (chain : Chain)
    (key : BytesN 32) : Prop where
  ascending : payload.relatedBonds.Pairwise (· < ·)
  bonds : ∀ bondId, bondId ∈ payload.relatedBonds ↔
    ∃ config, BondIssuer.getBond chain.world.issuer bondId = .ok config ∧ config.projectId = key
  reports : ∀ reportId report,
    OracleConsumer.getReport chain.world.oracle reportId = .ok report → report.projectId = key →
      ∃ entry, payload.reports.filter (fun entry => entry.id = reportId) = [entry] ∧
        entry.Describes ctx report

/-- There is no report under the key, and a bond has the key for its project
exactly if it has the metadata hash. -/
structure Chain.NamedByHash (chain : Chain) (key metadataHash : BytesN 32) : Prop where
  no_report : ∀ reportId report,
    OracleConsumer.getReport chain.world.oracle reportId = .ok report → report.projectId ≠ key
  same_bonds : ∀ bondId config, BondIssuer.getBond chain.world.issuer bondId = .ok config →
    (config.projectId = metadataHash ↔ config.projectId = key)

/-- A project's fields, read by their positions, always give its data. -/
theorem readProjectData_chain (ctx : ExportContext) (projectId : Nat)
    (project : ProjectRegistry.Project) :
    ∃ data, readProjectData ctx projectId [.bigint project.id,
      .text (ctx.addressText project.owner), .buffer project.metadataIpfsHash.bytes,
      scValToNative ctx.addressText (project.status.toScVal ctx.variants),
      .text project.methodology, .text project.country] project.metadataIpfsHash.bytes = some data := by
  have hstatus : ∃ json,
      (scValToNative ctx.addressText (project.status.toScVal ctx.variants)).toJson = some json := by
    cases project.status <;> cases ctx.variants <;> exact ⟨_, rfl⟩
  obtain ⟨json, hjson⟩ := hstatus
  simp only [readProjectData, List.getElem?_cons_zero, List.getElem?_cons_succ,
    Option.bind_eq_bind, Option.bind_some, Native.toCount, Native.toText, Native.toJson, hjson]
  exact ⟨_, rfl⟩

/-- The export of a registered project: whatever the chain holds, it has no
reports, and the bonds are those with the metadata hash for their project. -/
theorem exportProject_chain (ctx : ExportContext) {chain : Chain} {projectId : Nat}
    {project : ProjectRegistry.Project} (auditorAddress : String)
    (hproject : ProjectRegistry.getProject chain.registry projectId = .ok project) :
    ∃ payload checksum,
      exportProject ctx (chain.read ctx.variants) projectId auditorAddress =
        some (payload, checksum) ∧
      payload.reports = [] ∧
      payload.relatedBonds =
        collectBonds ctx (chain.read ctx.variants) project.metadataIpfsHash.bytes := by
  have hfields : readFields ctx (chain.read ctx.variants) .projectRegistry "get_project"
      [.u64 projectId] = some [.bigint project.id, .text (ctx.addressText project.owner),
        .buffer project.metadataIpfsHash.bytes,
        scValToNative ctx.addressText (project.status.toScVal ctx.variants),
        .text project.methodology, .text project.country] := by
    rw [readFields, Chain.read_getProject, hproject]
    rfl
  obtain ⟨data, hdata⟩ := readProjectData_chain ctx projectId project
  unfold exportProject
  rw [hfields, Option.bind_eq_bind, Option.bind_some]
  simp only [List.isEmpty_cons, List.getElem?_cons_zero, List.getElem?_cons_succ,
    Option.bind_eq_bind, Option.bind_some, Native.toBuffer, hdata, collectReports_chain,
    List.mapM_nil]
  exact ⟨_, _, rfl, rfl, rfl⟩

/-- On every reachable chain and for every registered project, the export
returns, and it is complete exactly if the project has no reports and the
metadata hash picks out the same bonds as the registry's key. -/
theorem exportProject_complete_iff (ctx : ExportContext) {chain : Chain}
    (hreach : chain.Reachable) {projectId : Nat} {project : ProjectRegistry.Project}
    (hproject : ProjectRegistry.getProject chain.registry projectId = .ok project)
    (auditorAddress : String) :
    ∃ payload checksum,
      exportProject ctx (chain.read ctx.variants) projectId auditorAddress =
        some (payload, checksum) ∧
      (payload.Complete ctx chain (ProjectRegistry.projectKey projectId) ↔
        chain.NamedByHash (ProjectRegistry.projectKey projectId) project.metadataIpfsHash) := by
  obtain ⟨payload, checksum, hexport, hreports, hbonds⟩ :=
    exportProject_chain ctx auditorAddress hproject
  have hnumbered : BondIssuer.NumberedBonds chain.world.issuer := by
    obtain ⟨d, txs, hworld⟩ := hreach.exists_world_run
    obtain ⟨calls, hissuer⟩ := exists_issuer_run d txs
    rw [hworld, hissuer]
    exact BondIssuer.numberedBonds_run d.issuerAdmin calls
  have hmem : ∀ bondId, bondId ∈ payload.relatedBonds ↔
      ∃ config, BondIssuer.getBond chain.world.issuer bondId = .ok config ∧
        config.projectId = project.metadataIpfsHash := by
    intro bondId
    rw [hbonds, mem_collectBonds, ← hnumbered bondId]
    simp only [BondIssuer.getBond, Fallible.okOr_ok_iff]
    constructor
    · exact fun h => h.2
    · intro hfound
      obtain ⟨config, hget, hkey⟩ := hfound
      exact ⟨by simp [hget], config, hget, hkey⟩
  refine ⟨payload, checksum, hexport, ?_, ?_⟩
  · intro hcomplete
    refine ⟨fun reportId report hreport hkey => ?_, fun bondId config hconfig => ?_⟩
    · obtain ⟨entry, hentry, -⟩ := hcomplete.reports reportId report hreport hkey
      simp [hreports] at hentry
    · have hsame := (hmem bondId).symm.trans (hcomplete.bonds bondId)
      simpa [hconfig] using hsame
  · intro hnamed
    refine ⟨?_, fun bondId => ?_, fun reportId report hreport hkey => ?_⟩
    · rw [hbonds]
      exact pairwise_collectBonds ctx chain _
    · rw [hmem bondId]
      exact exists_congr fun config => and_congr_right fun hconfig =>
        hnamed.same_bonds bondId config hconfig
    · exact absurd hkey (hnamed.no_report reportId report hreport)

def sampleExportContext : ExportContext where
  addressText address := toString address
  variants := .named
  now := "2026-01-01T00:00:00.000Z"
  getContent _ := none
  documents _ := []
  sha256Hex text := text

/-- A transaction signed by one account, in a release build. -/
def exportTx (signer : Address) (call : ChainCall) : TxContext × ChainCall :=
  (⟨1, [signer], none, false⟩, call)

/-- A project is registered under a metadata hash and approved, and a bond is
issued for it by an issuer that asks the registry. -/
def bondForProject (metadataHash : BytesN 32) : List (TxContext × ChainCall) := [
  exportTx 5 (.registry (.registerProject 5 metadataHash "VCS" "BR" 0)),
  exportTx 0 (.registry (.approveProject 0 1 0)),
  exportTx 0 (.deployed (.issuer (.setProjectRegistry 0 106 0))),
  exportTx 0 (.deployed (.issuer (.issueBond 0
    { BondIssuer.sampleConfig with projectId := ProjectRegistry.projectKey 1 } 1)))]

/-- Then a provider reports on it. -/
def reportOnProject (metadataHash : BytesN 32) : List (TxContext × ChainCall) :=
  bondForProject metadataHash ++ [
    exportTx 0 (.deployed (.oracle (.registerProvider 0 7 "VCS" 0))),
    exportTx 7 (.deployed (.oracle (.submitReport 7 (ProjectRegistry.projectKey 1) 10 20 250 .absent
      "VCS" metadataHash 0)))]

def sampleChain (txs : List (TxContext × ChainCall)) : Chain :=
  chainMachine.run (launch sampleDeployment 106 0) txs

/-- The chain after the given transactions is reachable. -/
theorem sampleChain_reachable (txs : List (TxContext × ChainCall)) : (sampleChain txs).Reachable :=
  ⟨sampleDeployment, 106, 0, txs, rfl⟩

/-- A digest that is not all zeros. -/
def hashedMetadata : BytesN 32 := ⟨List.replicate 32 8, rfl⟩

/-- A project whose metadata hash happens to be its key. -/
theorem exportProject_complete_by_key :
    ∃ payload checksum,
      exportProject sampleExportContext
        ((sampleChain (bondForProject (ProjectRegistry.projectKey 1))).read .named) 1 "" =
          some (payload, checksum) ∧
      (payload.Complete sampleExportContext
          (sampleChain (bondForProject (ProjectRegistry.projectKey 1)))
          (ProjectRegistry.projectKey 1) ↔
        (sampleChain (bondForProject (ProjectRegistry.projectKey 1))).NamedByHash
          (ProjectRegistry.projectKey 1) (ProjectRegistry.projectKey 1)) :=
  @exportProject_complete_iff sampleExportContext _ (sampleChain_reachable _) 1
    ⟨1, 5, ProjectRegistry.projectKey 1, .approved, "VCS", "BR"⟩ rfl ""

/-- A project whose metadata hash is another one: its bond and its report are
both stored under its key, and the export has neither. -/
theorem exportProject_misses_bond_and_report :
    (sampleChain (reportOnProject hashedMetadata)).Reachable ∧
    (sampleChain (reportOnProject hashedMetadata)).world.issuer.projectRegistry = some 106 ∧
    ((BondIssuer.getBond (sampleChain (reportOnProject hashedMetadata)).world.issuer 1).toOption.map
      BondConfig.projectId) = some (ProjectRegistry.projectKey 1) ∧
    ((OracleConsumer.getReport (sampleChain (reportOnProject hashedMetadata)).world.oracle
      1).toOption.map OracleConsumer.Report.projectId) = some (ProjectRegistry.projectKey 1) ∧
    ∃ payload checksum,
      exportProject sampleExportContext
        ((sampleChain (reportOnProject hashedMetadata)).read .named) 1 "" = some (payload, checksum) ∧
      payload.relatedBonds = [] ∧ payload.reports = [] ∧
      ¬ payload.Complete sampleExportContext (sampleChain (reportOnProject hashedMetadata))
        (ProjectRegistry.projectKey 1) := by
  have hproject : ProjectRegistry.getProject
      (sampleChain (reportOnProject hashedMetadata)).registry 1 =
        .ok ⟨1, 5, hashedMetadata, .approved, "VCS", "BR"⟩ := rfl
  obtain ⟨payload, checksum, hexport, hreports, hbonds⟩ :=
    exportProject_chain sampleExportContext "" hproject
  have hnone : payload.relatedBonds = [] := by
    rw [hbonds]
    decide +kernel
  refine ⟨sampleChain_reachable _, by decide +kernel, by decide +kernel, by decide +kernel,
    payload, checksum, hexport, hnone, hreports, ?_⟩
  intro hcomplete
  have hbond : 1 ∈ payload.relatedBonds := (hcomplete.bonds 1).mpr ⟨_, rfl, rfl⟩
  rw [hnone] at hbond
  cases hbond

end EcoMint
