import EcoMint.Cid
import EcoMint.Json
import EcoMint.NonceAllocation
import EcoMint.ScVal

/-!
# Submitting a report through the API

`OracleService.submitReport` pins the metadata of a report, takes a nonce for
its provider and sends seven arguments, to which `invokeContractMethod` adds the
nonce.  The contract's `submit_report` has nine parameters: biodiversity metrics
stand between the carbon amount and the methodology, and the API never sends
any.  A call whose arguments do not fit the parameters fails before the function
runs, so that the simulation that comes before every transaction fails and
nothing is submitted at all.
-/

namespace EcoMint

open Fallible OracleConsumer

/-! ## The contract function and its arguments -/

/-- The call that a vector of arguments makes: one argument for each parameter,
in the order of the parameters. -/
def decodeOracleCall : String → List ScVal → Option OracleConsumer.Call
  | "submit_report", [provider, projectId, periodStart, periodEnd, carbonSequestered,
      biodiversity, methodology, ipfsEvidenceHash, nonce] => do
      let provider ← provider.asAddress
      let projectId ← projectId.asBytesN 32
      let periodStart ← periodStart.asU64
      let periodEnd ← periodEnd.asU64
      let carbonSequestered ← carbonSequestered.asI128
      let biodiversity ← biodiversity.asBiodiversityMetrics
      let methodology ← methodology.asSymbol
      let ipfsEvidenceHash ← ipfsEvidenceHash.asBytesN 32
      let nonce ← nonce.asU64
      return .submitReport provider projectId periodStart periodEnd carbonSequestered
        biodiversity methodology ipfsEvidenceHash nonce
  | _, _ => none

/-- Run a call from its arguments; arguments that fit no function trap. -/
def invokeOracle (env : Env) (s : OracleConsumer.State) (method : String) (args : List ScVal) :
    Fallible OracleError (ScVal × OracleConsumer.State) := do
  let call ← orTrap (decodeOracleCall method args)
  let (output, s) ← exec env s call
  match output with
  | some id => return (.u64 id, s)
  | none => return (.void, s)

/-! ## Errors -/

/-- `error as u32` -/
def oracleErrorCode : OracleError → Nat
  | .notInitialized => 1
  | .unauthorized => 2
  | .invalidNonce => 3
  | .providerNotFound => 4
  | .providerAlreadyExists => 5
  | .reportNotFound => 6
  | .reportAlreadyVerified => 7
  | .challengeWindowExpired => 8
  | .insufficientStake => 9
  | .invalidSignature => 10
  | .invalidResolution => 11
  | .overlappingReportPeriod => 12

/-- `ERROR_MAPPINGS.ORACLE`: the stable code and the message for each error code. -/
def ORACLE_ERROR_MAPPINGS : List (Nat × String × String) := [
  (1, "ORACLE_NOT_INITIALIZED", "Oracle contract is not initialized"),
  (2, "ORACLE_UNAUTHORIZED", "Unauthorized oracle operation"),
  (3, "ORACLE_INVALID_NONCE", "Invalid signature nonce for oracle"),
  (4, "ORACLE_PROVIDER_NOT_FOUND", "Oracle provider not found"),
  (5, "ORACLE_PROVIDER_ALREADY_EXISTS", "Oracle provider already registered"),
  (6, "ORACLE_REPORT_NOT_FOUND", "Oracle report not found"),
  (7, "ORACLE_REPORT_ALREADY_VERIFIED", "Oracle report is already verified"),
  (8, "ORACLE_CHALLENGE_WINDOW_EXPIRED", "Oracle report challenge window has expired"),
  (9, "ORACLE_INSUFFICIENT_STAKE", "Oracle provider stake is insufficient"),
  (10, "ORACLE_INVALID_SIGNATURE", "Invalid signature for oracle verification"),
  (11, "ORACLE_INVALID_RESOLUTION", "Invalid resolution state for challenge"),
  (12, "ORACLE_OVERLAPPING_REPORT_PERIOD", "Oracle report period overlaps an existing report")]

/-- What the API answers instead of a result. -/
inductive ServiceError
  | error (message : String)
  | badRequest (message : String)
  | unprocessableEntity (message : String)
  | invalidEvidenceReference (message : String)
  | contractException (code message : String) (rawCode : Option Nat)
deriving DecidableEq, Repr

/-- The stable code and text of a contract's error code. -/
def mapErrorCodeToStable (code : Option Nat) : String × String :=
  match code.bind fun n => ORACLE_ERROR_MAPPINGS.lookup n with
  | some mapped => mapped
  | none => ("UNKNOWN_CONTRACT_ERROR",
      "An unknown contract error occurred on category ORACLE (raw code: " ++
        (code.map toString).getD "undefined" ++ ")")

/-- The error that a service raises for a contract's error code. -/
def throwMappedContractError (code : Option Nat) : ServiceError :=
  .contractException (mapErrorCodeToStable code).1 (mapErrorCodeToStable code).2 code

/-- The code that the message of a failed simulation carries, if any. -/
def extractContractErrorCode : Failure OracleError → Option Nat
  | .error e => some (oracleErrorCode e)
  | .trap => none

/-- No error of the contract is reported as an unknown one. -/
theorem mapErrorCodeToStable_known (e : OracleError) :
    (mapErrorCodeToStable (some (oracleErrorCode e))).1 ≠ "UNKNOWN_CONTRACT_ERROR" := by
  cases e <;> decide +kernel

/-! ## The service -/

/-- The fields of a request to submit a report without a manifest. -/
structure SubmitReportDto where
  projectId : String
  periodStart : Nat
  periodEnd : Nat
  carbonSequestered : Nat
  methodology : String
  evidenceHash : Option String

/-- What the API returns of a submitted report. -/
structure ReportResponse where
  id : Nat
  projectId : String
  periodStart : Nat
  periodEnd : Nat
  carbonSequestered : String
  methodology : String
  ipfsHash : String
  providerAddress : String
  status : ReportStatus
  createdAt : String

/-- What the service is given from outside: its configuration, the answers of
the services it calls, and the ledger. -/
structure SubmitContext where
  /-- the text of an address -/
  addressText : Address → String
  sha256 : String → BytesN 32
  /-- `new Date().toISOString()` -/
  now : String
  uploadJson : Json → Except String String
  /-- `ORACLE_EVIDENCE_VERIFY_RETRIEVABILITY === 'true'` -/
  verifyRetrievability : Bool
  gateway : String
  /-- the status of the answer from an address, or the error of the request -/
  fetch : String → Except String Nat
  /-- the address of the admin secret -/
  adminAddress : Address
  getAccount : Except String Unit
  /-- the ledger on which the transaction is simulated, and on which it is applied -/
  simulated : Env
  applied : Env
  prepareTransaction : Except String Unit
  /-- whether the network takes the transaction in -/
  sendAccepted : Bool

/-- The Redis counters of the nonces, and the oracle consumer. -/
structure SubmissionState where
  counters : Storage (Contract × Address) Nat
  oracle : OracleConsumer.State

/-- The metadata document of a report. -/
def reportMetadata (ctx : SubmitContext) (dto : SubmitReportDto) (providerAddress : Address) :
    Json := .obj ([
  ("projectId", Json.str dto.projectId), ("periodStart", Json.num (Json.ofNat dto.periodStart)),
  ("periodEnd", Json.num (Json.ofNat dto.periodEnd)),
  ("carbonSequestered", Json.num (Json.ofNat dto.carbonSequestered)),
  ("methodology", Json.str dto.methodology)] ++
  dto.evidenceHash.toList.map (fun hash => ("evidenceHash", Json.str hash)) ++ [
  ("providerAddress", Json.str (ctx.addressText providerAddress)), ("timestamp", Json.str ctx.now)])

/-- Only a CIDv0 names something to fetch. -/
def assertEvidenceRetrievable (ctx : SubmitContext) (evidenceHash : String) :
    Except ServiceError Unit :=
  if evidenceHash.startsWith "Qm" then
    match ctx.fetch (ctx.gateway ++ evidenceHash) with
    | .ok status =>
        if 200 ≤ status ∧ status < 300 then .ok ()
        else .error (.unprocessableEntity ("Evidence " ++ evidenceHash ++
          " is not retrievable from the configured IPFS gateway (status " ++
          toString status ++ ")."))
    | .error message =>
        .error (.unprocessableEntity ("Evidence " ++ evidenceHash ++
          " could not be retrieved from the configured IPFS gateway: " ++ message))
  else .ok ()

/-- Everything `submitReport` does before it takes a nonce: the pinned hash, and
the reference that becomes the report's evidence. -/
def resolveEvidence (ctx : SubmitContext) (dto : SubmitReportDto) (providerAddress : Address) :
    Except ServiceError (String × String) := do
  let ipfsHash ← match ctx.uploadJson (reportMetadata ctx dto providerAddress) with
    | .ok hash => .ok hash
    | .error message => .error (.error message)
  match dto.evidenceHash with
  | some evidenceHash =>
      if ctx.verifyRetrievability then assertEvidenceRetrievable ctx evidenceHash
      return (ipfsHash, evidenceHash)
  | none => return (ipfsHash, ipfsHash)

/-- The 32 bytes that the text spells in hexadecimal digits, or else its hash. -/
def toBytes32 (ctx : SubmitContext) (value : String) : BytesN 32 :=
  if h : (bufferFromHex value.toList).length = 32 then ⟨bufferFromHex value.toList, h⟩
  else ctx.sha256 value

/-- `nativeToScVal` of a number from a request, which the type must hold. -/
def numberToScVal (type : IntRange) (wrap : Nat → ScVal) (n : Nat) : Except ServiceError ScVal :=
  if type.Fits n then .ok (wrap n) else .error (.error "integer out of range")

/-- The digest of the evidence as the call carries it. -/
def evidenceHashToScVal (evidenceReference : String) : Except ServiceError ScVal :=
  match encodeCid evidenceReference with
  | .ok digest => .ok digest.toScVal
  | .error e => .error (.invalidEvidenceReference e.message)

/-- The arguments that `submitReport` hands to `invokeContractMethod`. -/
def submitReportArgs (ctx : SubmitContext) (dto : SubmitReportDto) (providerAddress : Address)
    (evidenceReference : String) : Except ServiceError (List ScVal) := do
  let periodStart ← numberToScVal .u64 .u64 dto.periodStart
  let periodEnd ← numberToScVal .u64 .u64 dto.periodEnd
  let carbonSequestered ← numberToScVal .i128 (fun n => .i128 n) dto.carbonSequestered
  let evidenceHash ← evidenceHashToScVal evidenceReference
  return [.address providerAddress, (toBytes32 ctx dto.projectId).toScVal, periodStart, periodEnd,
    carbonSequestered, .symbol dto.methodology, evidenceHash]

/-- `sendTransaction`: a simulation, which records the authorisations it would
need, and then the transaction, signed by the admin alone.  What is returned is
the value of the simulation. -/
def sendTransaction (ctx : SubmitContext) (s : OracleConsumer.State) (method : String)
    (args : List ScVal) : Except ServiceError ScVal × OracleConsumer.State :=
  let recording : Env := { ctx.simulated with
    signers := ctx.adminAddress :: args.filterMap ScVal.asAddress, invoker := none }
  let signed : Env := { ctx.applied with signers := [ctx.adminAddress], invoker := none }
  match ctx.getAccount with
  | .error message =>
      (.error (.badRequest ("Failed to submit contract transaction: " ++ message)), s)
  | .ok () =>
    match invokeOracle recording s method args with
    | .error e => (.error (throwMappedContractError (extractContractErrorCode e)), s)
    | .ok (retval, _) =>
      match ctx.prepareTransaction with
      | .error message =>
          (.error (.badRequest ("Failed to submit contract transaction: " ++ message)), s)
      | .ok () =>
        if ctx.sendAccepted then
          match invokeOracle signed s method args with
          | .ok (_, s) => (.ok retval, s)
          | .error _ => (.ok retval, s)
        else (.error (throwMappedContractError none), s)

/-- The nonce goes behind the arguments. -/
def invokeContractMethod (ctx : SubmitContext) (s : OracleConsumer.State) (method : String)
    (args : List ScVal) (nonce : Nat) : Except ServiceError ScVal × OracleConsumer.State :=
  sendTransaction ctx s method (args ++ [.u64 nonce])

/-- `OracleService.submitReport` -/
def OracleService.submitReport (ctx : SubmitContext) (s : SubmissionState) (dto : SubmitReportDto)
    (providerAddress : Address) : Except ServiceError ReportResponse × SubmissionState :=
  match resolveEvidence ctx dto providerAddress with
  | .error e => (.error e, s)
  | .ok (ipfsHash, evidenceReference) =>
    let (nonce, counters) := NonceService.next s.counters (.oracleConsumer, providerAddress)
    match submitReportArgs ctx dto providerAddress evidenceReference with
    | .error e => (.error e, { s with counters })
    | .ok args =>
      let (result, oracle) := invokeContractMethod ctx s.oracle "submit_report" args nonce
      (result.map fun value =>
        { id := value.asU64.getD 0
          projectId := dto.projectId
          periodStart := dto.periodStart
          periodEnd := dto.periodEnd
          carbonSequestered := toString dto.carbonSequestered
          methodology := dto.methodology
          ipfsHash
          providerAddress := ctx.addressText providerAddress
          status := .pending
          createdAt := ctx.now }, { counters, oracle })

/-! ## The vector that is sent -/

/-- A vector makes a call only with an argument for each of nine parameters. -/
theorem length_of_decodeOracleCall {method : String} {args : List ScVal}
    {call : OracleConsumer.Call} (h : decodeOracleCall method args = some call) :
    args.length = 9 := by
  unfold decodeOracleCall at h
  split at h
  · rfl
  · cases h

/-- The arguments of a submission, and what had to hold for them to be made. -/
theorem submitReportArgs_ok {ctx : SubmitContext} {dto : SubmitReportDto}
    {providerAddress : Address} {evidenceReference : String} {args : List ScVal}
    (h : submitReportArgs ctx dto providerAddress evidenceReference = .ok args) :
    ∃ digest, encodeCid evidenceReference = .ok digest ∧
      args = [.address providerAddress, (toBytes32 ctx dto.projectId).toScVal,
        .u64 dto.periodStart, .u64 dto.periodEnd, .i128 dto.carbonSequestered,
        .symbol dto.methodology, digest.toScVal] := by
  have hnumber : ∀ {type : IntRange} {wrap : Nat → ScVal} {n : Nat} {value : ScVal},
      numberToScVal type wrap n = .ok value → value = wrap n := by
    intro type wrap n value hvalue
    unfold numberToScVal at hvalue
    split at hvalue
    · cases hvalue
      rfl
    · cases hvalue
  simp only [submitReportArgs, bind_ok_iff, pure_ok_iff] at h
  obtain ⟨periodStart, hstart, periodEnd, hend, carbon, hcarbon, evidence, hevidence, rfl⟩ := h
  obtain rfl := hnumber hstart
  obtain rfl := hnumber hend
  obtain rfl := hnumber hcarbon
  unfold evidenceHashToScVal at hevidence
  split at hevidence
  · rename_i digest hdigest
    cases hevidence
    exact ⟨digest, hdigest, rfl⟩
  · cases hevidence

/-- With metrics between the carbon amount and the methodology, the arguments
and the nonce would be the call that the request asks for. -/
theorem decodeOracleCall_insert_biodiversity {ctx : SubmitContext} {dto : SubmitReportDto}
    {providerAddress : Address} {evidenceReference : String} {args : List ScVal}
    (h : submitReportArgs ctx dto providerAddress evidenceReference = .ok args)
    (biodiversity : BiodiversityMetrics) (nonce : Nat) :
    ∃ digest, encodeCid evidenceReference = .ok digest ∧
      decodeOracleCall "submit_report" (args.insertIdx 5 biodiversity.toScVal ++ [.u64 nonce]) =
        some (.submitReport providerAddress (toBytes32 ctx dto.projectId) dto.periodStart
          dto.periodEnd dto.carbonSequestered biodiversity dto.methodology digest nonce) := by
  obtain ⟨digest, hdigest, rfl⟩ := submitReportArgs_ok h
  refine ⟨digest, hdigest, ?_⟩
  have hmetrics : biodiversity.toScVal.asBiodiversityMetrics = some biodiversity :=
    ScVal.asBiodiversityMetrics_eq_some.mpr rfl
  have hdigestVal : digest.toScVal.asBytesN 32 = some digest := ScVal.asBytesN_eq_some.mpr rfl
  have hproject : (toBytes32 ctx dto.projectId).toScVal.asBytesN 32 =
      some (toBytes32 ctx dto.projectId) := ScVal.asBytesN_eq_some.mpr rfl
  simp [decodeOracleCall, List.insertIdx, hmetrics, hdigestVal, hproject, ScVal.asAddress,
    ScVal.asU64, ScVal.asI128, ScVal.asSymbol]

/-- The arguments as they are sent make no call. -/
theorem decodeOracleCall_submitReport {ctx : SubmitContext} {dto : SubmitReportDto}
    {providerAddress : Address} {evidenceReference : String} {args : List ScVal}
    (h : submitReportArgs ctx dto providerAddress evidenceReference = .ok args)
    (method : String) (nonce : Nat) : decodeOracleCall method (args ++ [.u64 nonce]) = none := by
  obtain ⟨digest, -, rfl⟩ := submitReportArgs_ok h
  cases hcall : decodeOracleCall method _ with
  | none => rfl
  | some call => exact absurd (length_of_decodeOracleCall hcall) (by simp)

/-- The request as the allocation of nonces models it submits what its arguments
make: nothing. -/
theorem call_submitReport {ctx : SubmitContext} {dto : SubmitReportDto}
    {providerAddress : Address} {evidenceReference : String} {args : List ScVal}
    (h : submitReportArgs ctx dto providerAddress evidenceReference = .ok args) (nonce : Nat) :
    (ApiRequest.submitReport providerAddress).call nonce =
      (decodeOracleCall "submit_report" (args ++ [.u64 nonce])).map
        fun call => .deployed (.oracle call) := by
  rw [decodeOracleCall_submitReport h]
  rfl

/-! ## Nothing is stored -/

/-- Arguments that make no call never get past the simulation. -/
theorem sendTransaction_of_undecodable (ctx : SubmitContext) (s : OracleConsumer.State)
    {method : String} {args : List ScVal} (h : decodeOracleCall method args = none) :
    ∃ e, sendTransaction ctx s method args = (.error e, s) := by
  have htrap : ∀ env, invokeOracle env s method args = .error .trap := by
    intro env
    simp only [invokeOracle, h]
    rfl
  unfold sendTransaction
  split
  · exact ⟨_, rfl⟩
  · dsimp only
    rw [htrap]
    exact ⟨_, rfl⟩

/-- Whatever comes in, a submission fails and leaves the contract as it was. -/
theorem submitReport_fails (ctx : SubmitContext) (s : SubmissionState) (dto : SubmitReportDto)
    (providerAddress : Address) :
    (∃ e, (OracleService.submitReport ctx s dto providerAddress).1 = .error e) ∧
      (OracleService.submitReport ctx s dto providerAddress).2.oracle = s.oracle := by
  unfold OracleService.submitReport
  split
  · exact ⟨⟨_, rfl⟩, rfl⟩
  · rename_i ipfsHash evidenceReference _
    dsimp only
    split
    · exact ⟨⟨_, rfl⟩, rfl⟩
    · rename_i args hargs
      obtain ⟨e, he⟩ := sendTransaction_of_undecodable ctx s.oracle
        (decodeOracleCall_submitReport hargs "submit_report"
          (NonceService.next s.counters (.oracleConsumer, providerAddress)).1)
      rw [invokeContractMethod, he]
      exact ⟨⟨e, rfl⟩, rfl⟩

/-- The call left a pending report behind that says what the request says, with
the digest of the evidence. -/
def StoresReport (dto : SubmitReportDto) (providerAddress : Address) (digest : BytesN 32)
    (before after : OracleConsumer.State) : Prop :=
  ∃ id report, before.report.get id = none ∧ after.report.get id = some report ∧
    report.status = .pending ∧ report.provider = providerAddress ∧
    report.periodStart = dto.periodStart ∧ report.periodEnd = dto.periodEnd ∧
    report.carbonSequestered = dto.carbonSequestered ∧ report.methodology = dto.methodology ∧
    report.ipfsEvidenceHash = digest

/-- A call that leaves the oracle as it was stores no report. -/
theorem not_storesReport_of_eq {dto : SubmitReportDto} {providerAddress : Address}
    {digest : BytesN 32} {before after : OracleConsumer.State} (h : after = before) :
    ¬ StoresReport dto providerAddress digest before after := by
  rintro ⟨id, report, hbefore, hafter, -⟩
  rw [h, hbefore] at hafter
  cases hafter

/-- No submission stores its report: not for any request, provider, answer of
another service or state of the contract. -/
theorem submitReport_never_stores (ctx : SubmitContext) (s : SubmissionState)
    (dto : SubmitReportDto) (providerAddress : Address) (digest : BytesN 32) :
    ¬ StoresReport dto providerAddress digest s.oracle
      (OracleService.submitReport ctx s dto providerAddress).2.oracle :=
  not_storesReport_of_eq (submitReport_fails ctx s dto providerAddress).2

/-! A request that has everything it needs: the contract would take the report,
had the metrics been sent, and the API gets no further than the simulation. -/

def sampleRequest : SubmitReportDto where
  projectId := "0100000000000000000000000000000000000000000000000000000000000000"
  periodStart := 1700000000
  periodEnd := 1700086400
  carbonSequestered := 250
  methodology := "VCS"
  evidenceHash := none

def sampleLedger : Env where
  timestamp := 1700090000
  signers := []
  invoker := none
  contract := 9
  overflowChecks := true

def sampleSubmitContext : SubmitContext where
  addressText address := toString address
  sha256 _ := ⟨List.replicate 32 7, rfl⟩
  now := "2023-11-15T23:13:20.000Z"
  uploadJson _ := .ok "QmaozNR7DZHQK1ZcU9p7QdrshMvXqWK6gpu5rmrkPdT3L4"
  verifyRetrievability := false
  gateway := "https://gateway.pinata.cloud/ipfs/"
  fetch _ := .ok 200
  adminAddress := 2
  getAccount := .ok ()
  simulated := sampleLedger
  applied := sampleLedger
  prepareTransaction := .ok ()
  sendAccepted := true

/-- The admin has registered itself as a provider. -/
def sampleSubmissionState : SubmissionState where
  counters := (∅ : Storage (Contract × Address) Nat).set (.oracleConsumer, 2) 1
  oracle :=
    match registerProvider { sampleLedger with signers := [2] } (constructor 2) 2 2 "VCS" 0 with
    | .ok s => s
    | .error _ => constructor 2

/-- A request that everything in it allows stores no report. -/
theorem submitReport_drops_report :
    sampleRequest.periodStart < sampleRequest.periodEnd ∧
    isValidCid "QmaozNR7DZHQK1ZcU9p7QdrshMvXqWK6gpu5rmrkPdT3L4" = true ∧
    (sampleSubmissionState.oracle.provider.get 2).map OracleProvider.active = some true ∧
    (∀ id, sampleSubmissionState.oracle.report.get id = none) ∧
    (NonceService.next sampleSubmissionState.counters (.oracleConsumer, 2)).1 =
      sampleSubmissionState.oracle.nonce.read 2 ∧
    ∃ digest, encodeCid "QmaozNR7DZHQK1ZcU9p7QdrshMvXqWK6gpu5rmrkPdT3L4" = .ok digest ∧
      (∃ id after, OracleConsumer.submitReport { sampleLedger with signers := [2] }
        sampleSubmissionState.oracle 2 (toBytes32 sampleSubmitContext sampleRequest.projectId)
        sampleRequest.periodStart sampleRequest.periodEnd sampleRequest.carbonSequestered .absent
        sampleRequest.methodology digest 1 = .ok (id, after) ∧
        StoresReport sampleRequest 2 digest sampleSubmissionState.oracle after) ∧
      ¬ StoresReport sampleRequest 2 digest sampleSubmissionState.oracle
        (OracleService.submitReport sampleSubmitContext sampleSubmissionState sampleRequest
          2).2.oracle := by
  have hvalid : isValidCid "QmaozNR7DZHQK1ZcU9p7QdrshMvXqWK6gpu5rmrkPdT3L4" = true := by
    decide +kernel
  obtain ⟨digest, hdigest⟩ := isValidCid_iff_encodeCid.mp hvalid
  refine ⟨by decide, hvalid, by decide +kernel, fun _ => rfl, by decide +kernel, digest,
    hdigest, ⟨1, _, rfl, 1, _, by decide +kernel, rfl, rfl, rfl, rfl, rfl, rfl, rfl, rfl⟩, ?_⟩
  exact not_storesReport_of_eq (submitReport_fails _ _ _ _).2

end EcoMint
