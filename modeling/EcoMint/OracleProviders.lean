import EcoMint.OracleStake

/-!
# The books about providers

Next to every provider the oracle consumer keeps books that no check reads but
the views return: a list of all providers, the number of reports of each, and
the lists of its challenged reports and of its slashes.  None of them is ever
recomputed.  They are nevertheless right in every reachable storage, so what
`get_provider_stats` returns is what counting the reports would give.
-/

namespace EcoMint.OracleConsumer

open Fallible Storage IntRange

/-- The provider a call registers. -/
def Call.registers : Call → Option Address
  | .registerProvider _ provider _ _ => some provider
  | _ => none

/-- The report under an id is one of the provider. -/
def State.reportBy (s : State) (addr : Address) (id : Nat) : Bool :=
  (s.report.get id).any fun report => decide (report.provider = addr)

/-- The report under an id was challenged. -/
def State.challengedAt (s : State) (id : Nat) : Bool := (s.challenge.get id).isSome

/-- The report under an id is rejected. -/
def State.rejectedAt (s : State) (id : Nat) : Bool :=
  (s.report.get id).any fun report => decide (report.status = .rejected)

/-- The ids of the reports of a provider, in the order of submission. -/
def State.reportsOf (s : State) (addr : Address) : List Nat :=
  (List.range' 1 s.reportCount).filter (s.reportBy addr)

/-! ## Adding up penalties -/

/-- Adding to a sum that was kept up to wrapping, in the build at hand. -/
theorem addI128_wrap_ok_iff {ε : Type} {env : Env} {exact amount total : Int}
    (hfits : env.overflowChecks = true → i128.Fits exact) :
    (env.addI128 (i128.wrap exact) amount : Fallible ε Int) = .ok total ↔
      (env.overflowChecks = true → i128.Fits (exact + amount)) ∧
        total = i128.wrap (exact + amount) := by
  unfold Env.addI128
  cases hchecks : env.overflowChecks with
  | true =>
      rw [wrap_of_fits _ (hfits hchecks)]
      by_cases hsum : i128.Fits (exact + amount)
      · simp [hsum, wrap_of_fits _ hsum, eq_comm]
      · simp [hsum]
  | false =>
      have hwrap := wrap_wrap_add i128 exact amount
      by_cases hsum : i128.Fits (i128.wrap exact + amount)
      · rw [wrap_of_fits _ hsum] at hwrap
        simp [hsum, ← hwrap, eq_comm]
      · simp [hsum, hwrap, eq_comm]

/-- Penalties that are not negative add up to their exact sum, wrapped; a build
with overflow checks panics exactly if the sum leaves the type. -/
theorem sumPenalties_ok_iff {env : Env} {history : List SlashRecord} {exact : Int} (total : Int)
    (hexact : 0 ≤ exact) (hfits : env.overflowChecks = true → i128.Fits exact)
    (hrecords : ∀ record ∈ history, 0 ≤ record.penalty) :
    sumPenalties env (i128.wrap exact) history = .ok total ↔
      (env.overflowChecks = true →
        i128.Fits (exact + (history.map SlashRecord.penalty).sum)) ∧
        total = i128.wrap (exact + (history.map SlashRecord.penalty).sum) := by
  induction history generalizing exact with
  | nil =>
      simp only [sumPenalties, pure_ok_iff, List.map_nil, List.sum_nil, Int.add_zero]
      constructor
      · intro htotal
        exact ⟨hfits, htotal.symm⟩
      · intro h
        exact h.2.symm
  | cons record rest ih =>
      have hrecord : 0 ≤ record.penalty := hrecords record (List.mem_cons_self ..)
      have hrest : ∀ later ∈ rest, 0 ≤ later.penalty := fun later hlater =>
        hrecords later (List.mem_cons_of_mem record hlater)
      have hsum : 0 ≤ (rest.map SlashRecord.penalty).sum := by
        apply List.sum_nonneg
        intro penalty hpenalty
        obtain ⟨later, hlater, rfl⟩ := List.mem_map.mp hpenalty
        exact hrest later hlater
      have hassoc : exact + ((record :: rest).map SlashRecord.penalty).sum =
          exact + record.penalty + (rest.map SlashRecord.penalty).sum := by
        rw [List.map_cons, List.sum_cons, Int.add_assoc]
      rw [hassoc]
      simp only [sumPenalties, bind_ok_iff, addI128_wrap_ok_iff hfits]
      constructor
      · intro h
        obtain ⟨_, ⟨hstep, rfl⟩, h⟩ := h
        exact (ih (Int.add_nonneg hexact hrecord) hstep hrest).mp h
      · intro h
        have hstep : env.overflowChecks = true → i128.Fits (exact + record.penalty) :=
          fun hchecks => (h.1 hchecks).of_nonneg_of_le _ (Int.add_nonneg hexact hrecord) (by omega)
        exact ⟨_, ⟨hstep, rfl⟩, (ih (Int.add_nonneg hexact hrecord) hstep hrest).mpr h⟩

/-! ## What one call does to the books -/

/-- What a call does to the books: nothing, enter one provider, or count one
report. -/
inductive BookStep (s s' : State) (call : Call) : Prop
  | kept (hkeeps : s.KeepsReports s') (hcount : s'.providerReportCount = s.providerReportCount)
      (hlist : s'.providerList = s.providerList)
      (hknown : ∀ addr, (s'.provider.get addr).isSome = (s.provider.get addr).isSome)
      (hnone : call.registers = none)
  | registered (provider : Address) (hkeeps : s.KeepsReports s')
      (hcount : s'.providerReportCount = s.providerReportCount)
      (hlist : s'.providerList = s.providerList ++ [provider])
      (hnew : s.provider.get provider = none)
      (hknown : ∀ addr, (s'.provider.get addr).isSome =
        (decide (addr = provider) || (s.provider.get addr).isSome))
      (hregisters : call.registers = some provider)
  | submitted (report : Report) (hprovider : (s.provider.get report.provider).isSome = true)
      (hafter : s' = (s.bump report.provider).addReport report) (hnone : call.registers = none)

/-- Rewriting a stored provider registers nobody. -/
theorem isSome_get_of_set {s s' : State} {provider : Address} {p p' : OracleProvider}
    (hget : s.provider.get provider = some p) (h : s'.provider = s.provider.set provider p')
    (addr : Address) : (s'.provider.get addr).isSome = (s.provider.get addr).isSome := by
  rw [h, get_set]
  split
  · next haddr => rw [haddr, hget, Option.isSome_some, Option.isSome_some]
  · rfl

/-- A step on the providers is a step of the books. -/
theorem ProviderStep.bookStep {env : Env} {s s' : State} {call : Call}
    (h : ProviderStep env s s' call) : BookStep s s' call := by
  have hsame := h.sameReports
  have hkeeps : s.KeepsReports s' :=
    ⟨fun id => by rw [hsame.report], hsame.reportCount, hsame.projectReports⟩
  cases h with
  | registered caller provider methodology nonce hcall hadmin hnew hafter =>
      subst hcall hafter
      refine .registered provider hkeeps rfl rfl hnew ?_ rfl
      intro addr
      dsimp only
      rw [get_set]
      by_cases haddr : addr = provider <;> simp [haddr]
  | administered currentAdmin newAdmin hcall hadmin hafter =>
      subst hcall hafter
      exact .kept hkeeps rfl rfl (fun addr => rfl) rfl
  | removed caller provider nonce p hcall hadmin hget hafter =>
      subst hcall hafter
      exact .kept hkeeps rfl rfl (isSome_get_of_set hget rfl) rfl
  | thresholdSet caller threshold nonce hcall hadmin hafter =>
      subst hcall hafter
      exact .kept hkeeps rfl rfl (fun addr => rfl) rfl
  | minimumSet caller stake nonce hcall hadmin hstake hafter =>
      subst hcall hafter
      exact .kept hkeeps rfl rfl (fun addr => rfl) rfl
  | staked provider amount nonce p hcall hamount hget hrange hafter =>
      subst hcall hafter
      exact .kept hkeeps rfl rfl (isSome_get_of_set hget rfl) rfl
  | withdrawn provider amount nonce p hcall hamount hget hcovered hafter =>
      subst hcall hafter
      exact .kept hkeeps rfl rfl (isSome_get_of_set hget rfl) rfl

/-- Every step of the oracle is a step of the books. -/
theorem OracleStep.bookStep {env : Env} {s s' : State} {call : Call}
    (h : OracleStep env s s' call) : BookStep s s' call := by
  cases h with
  | managed hstep => exact hstep.bookStep
  | submitted report p nonce hcall hprovider hactive hfresh hperiod hsound hapart hafter =>
      subst hcall
      exact .submitted report (by rw [hprovider]; rfl) hafter rfl
  | counted caller reportId nonce report hcall hcan hafter hshort =>
      obtain ⟨verifiers, counts, hrecorded⟩ := recordVerifier_frame (s.bump caller) caller reportId
      rw [hrecorded] at hafter
      subst hcall hafter
      exact .kept ⟨fun id => rfl, rfl, rfl⟩ rfl rfl (fun addr => rfl) rfl
  | verified caller reportId nonce report hcall hcan hafter hquorum =>
      obtain ⟨verifiers, counts, hrecorded⟩ := recordVerifier_frame (s.bump caller) caller reportId
      rw [hrecorded] at hafter
      subst hcall hafter
      exact .kept (.of_set hcan.stored rfl rfl rfl rfl) rfl rfl (fun addr => rfl) rfl
  | challenged challenger reportId hash nonce report hcall hget hstatus hwindow hfresh hafter =>
      subst hcall hafter
      exact .kept (.of_set hget rfl rfl rfl rfl) rfl rfl (fun addr => rfl) rfl
  | dismissed caller reportId nonce resolution challenge hcall hadmin hchallenge hclosed hafter =>
      subst hcall hafter
      exact .kept ⟨fun id => rfl, rfl, rfl⟩ rfl rfl (fun addr => rfl) rfl
  | upheld caller reportId nonce challenge report hcall hadmin hchallenge hopen hget hafter =>
      subst hcall hafter
      exact .kept (.of_set hget rfl rfl rfl rfl) rfl rfl (fun addr => rfl) rfl
  | rejected caller reportId nonce challenge report p penalty hcall hadmin hchallenge hopen hget
      hprovider hpenalty hafter =>
      subst hcall hafter
      exact .kept (.of_set hget rfl rfl rfl rfl) rfl rfl (isSome_get_of_set hprovider rfl) rfl

/-! ## The books along a run -/

/-- Every provider is listed once, in the order of registration, and the counter
of each is the number of its reports. -/
structure ProviderBook (s : State) (l : List LogEntry) : Prop where
  listed : s.providerList = l.filterMap fun e => e.input.call.registers
  nodup : s.providerList.Nodup
  known : ∀ addr, addr ∈ s.providerList ↔ (s.provider.get addr).isSome = true
  numbered : Numbered s.report s.reportCount
  counted : ∀ addr, s.providerReportCount.read addr = (s.reportsOf addr).length

theorem providerBook_constructor (admin : Address) : ProviderBook (constructor admin) [] where
  listed := rfl
  nodup := List.nodup_nil
  known addr := by simp [constructor]
  numbered := numbered_empty
  counted addr := by simp [constructor, State.reportsOf]

/-- Reports that are kept stay with their providers. -/
theorem State.KeepsReports.reportsOf {s s' : State} (h : s.KeepsReports s') (addr : Address) :
    s'.reportsOf addr = s.reportsOf addr := by
  have hany : ∀ (s : State) (id : Nat), s.reportBy addr id =
      ((s.report.get id).map Report.asSubmitted).any fun report =>
        decide (report.provider = addr) := by
    intro s id
    unfold State.reportBy
    cases s.report.get id <;> rfl
  have hsame : s'.reportBy addr = s.reportBy addr := by
    funext id
    rw [hany, hany, h.report]
  rw [State.reportsOf, State.reportsOf, h.reportCount, hsame]

/-- A report that is added is the last of its provider. -/
theorem reportsOf_addReport (s : State) (report : Report) (addr : Address) :
    (s.addReport report).reportsOf addr =
      s.reportsOf addr ++ if report.provider = addr then [s.reportCount + 1] else [] := by
  have hold : ∀ id ∈ List.range' 1 s.reportCount,
      (s.addReport report).reportBy addr id = s.reportBy addr id := by
    intro id hid
    have hne : id ≠ s.reportCount + 1 := by
      rw [List.mem_range'_1] at hid
      omega
    have hget : (s.addReport report).report.get id = s.report.get id := get_set_ne _ _ hne
    rw [State.reportBy, State.reportBy, hget]
  have hnew : (s.addReport report).reportBy addr (s.reportCount + 1) =
      decide (report.provider = addr) := by
    have hget : (s.addReport report).report.get (s.reportCount + 1) = some report :=
      get_set_self _ _ _
    rw [State.reportBy, hget]
    rfl
  have hrange : List.range' 1 (s.addReport report).reportCount =
      List.range' 1 s.reportCount ++ [s.reportCount + 1] := by
    have hcount : (s.addReport report).reportCount = s.reportCount + 1 := rfl
    rw [hcount, List.range'_concat, Nat.one_mul, Nat.add_comm 1]
  rw [State.reportsOf, hrange, List.filter_append, List.filter_congr hold, List.filter_singleton,
    hnew]
  simp [State.reportsOf]

/-- One transaction keeps the books right. -/
theorem ProviderBook.step {l : List LogEntry} {e : LogEntry} (hs : ProviderBook e.before l)
    (hstep : BookStep e.before e.after e.input.call) : ProviderBook e.after (l ++ [e]) := by
  cases hstep with
  | kept hkeeps hcount hlist hknown hnone =>
      constructor
      case listed => rw [hlist, hs.listed, Machine.filterMap_snoc, hnone, Option.toList_none,
        List.append_nil]
      case nodup => rw [hlist]; exact hs.nodup
      case known => intro addr; rw [hlist, hs.known, hknown]
      case numbered => rw [hkeeps.reportCount]; exact hs.numbered.rewritten hkeeps.report
      case counted => intro addr; rw [hcount, hs.counted, hkeeps.reportsOf]
  | registered provider hkeeps hcount hlist hnew hknown hregisters =>
      have hfresh : provider ∉ e.before.providerList := by
        rw [hs.known, hnew]
        simp
      constructor
      case listed => rw [hlist, hs.listed, Machine.filterMap_snoc, hregisters, Option.toList_some]
      case nodup =>
        rw [hlist, ← List.concat_eq_append]
        exact hs.nodup.concat hfresh
      case known =>
        intro addr
        rw [hlist, List.mem_append, List.mem_singleton, hs.known, hknown, Bool.or_eq_true,
          decide_eq_true_eq, or_comm]
      case numbered => rw [hkeeps.reportCount]; exact hs.numbered.rewritten hkeeps.report
      case counted => intro addr; rw [hcount, hs.counted, hkeeps.reportsOf]
  | submitted report hprovider hafter hnone =>
      rw [hafter]
      constructor
      case listed =>
        rw [Machine.filterMap_snoc, hnone, Option.toList_none, List.append_nil]
        exact hs.listed
      case nodup => exact hs.nodup
      case known => exact hs.known
      case numbered => exact hs.numbered.added report
      case counted =>
        intro addr
        have hcounter : ((e.before.bump report.provider).addReport report).providerReportCount =
            e.before.providerReportCount.set report.provider
              (e.before.providerReportCount.read report.provider + 1) := rfl
        have hold : ((e.before.bump report.provider).reportsOf addr).length =
            e.before.providerReportCount.read addr := (hs.counted addr).symm
        rw [hcounter, read_set, reportsOf_addReport, List.length_append, hold]
        by_cases haddr : addr = report.provider
        · simp [haddr]
        · simp [haddr, Ne.symm haddr]

/-- The books are right after every run. -/
theorem providerBook_run (admin : Address) (txs : List Tx) :
    ProviderBook (machine.run (constructor admin) txs) (machine.log (constructor admin) txs) := by
  refine machine.invariant (P := ProviderBook) (providerBook_constructor admin) ?_ txs
  intro l e hfires hs
  exact hs.step (oracleStep_of_fires hfires).bookStep

/-! ## What the views return -/

/-- A list without repetition that holds the chosen elements of another such
list is as long as there are chosen ones. -/
theorem length_eq_countP {ids all : List Nat} {chosen : Nat → Bool} (hids : ids.Nodup)
    (hall : all.Nodup) (hmem : ∀ id, id ∈ ids ↔ id ∈ all ∧ chosen id = true) :
    ids.length = all.countP chosen := by
  rw [List.countP_eq_length_filter]
  apply List.Perm.length_eq
  rw [List.perm_ext_iff_of_nodup hids (hall.filter _)]
  intro id
  rw [hmem, List.mem_filter]

theorem reportsOf_nodup (s : State) (addr : Address) : (s.reportsOf addr).Nodup :=
  List.Nodup.filter _ List.nodup_range'

/-- A provider's reports are those stored under their name. -/
theorem ProviderBook.mem_reportsOf {s : State} {l : List LogEntry} (hs : ProviderBook s l)
    {addr : Address} {id : Nat} : id ∈ s.reportsOf addr ↔
      ∃ report, s.report.get id = some report ∧ report.provider = addr := by
  rw [State.reportsOf, List.mem_filter, List.mem_range'_1, State.reportBy, Option.any_eq_true]
  simp only [decide_eq_true_eq]
  constructor
  · intro h
    exact h.2
  · intro h
    obtain ⟨report, hget, howner⟩ := h
    have hid := (hs.numbered id).mp (by rw [hget]; rfl)
    exact ⟨by omega, report, hget, howner⟩

/-- What the counters of a provider are for. -/
structure ProviderStats.Exact (stats : ProviderStats) (s : State) (l : List LogEntry)
    (addr : Address) : Prop where
  reports : stats.reportsSubmitted = (s.reportsOf addr).length
  challenges : stats.challengesFaced = (s.reportsOf addr).countP s.challengedAt
  history : (getChallengeHistory s addr).length = stats.challengesFaced
  slashes : stats.slashes = (s.reportsOf addr).countP s.rejectedAt
  rejected : stats.slashes ≤ stats.challengesFaced
  penalty : stats.totalPenalty = i128.wrap (added addr l - withdrawn addr l - stats.stake)
  stake : 0 ≤ stats.stake

/-- The statistics of a provider, as the books have them. -/
def State.booked (s : State) (addr : Address) (p : OracleProvider) : ProviderStats :=
  { reportsSubmitted := s.providerReportCount.read addr
    challengesFaced := (s.challengesOf addr).length
    slashes := (getSlashHistory s addr).length
    totalPenalty := i128.wrap (s.penalties addr)
    stake := p.stake
    active := p.active }

/-- The statistics are computed exactly when the penalties add up to a number that fits,
and are then those of the books. -/
theorem getProviderStats_ok_iff {env : Env} {s : State} {addr : Address} {stats : ProviderStats}
    (hrecords : ∀ record ∈ getSlashHistory s addr, 0 ≤ record.penalty) :
    getProviderStats env s addr = .ok stats ↔
      ∃ p, s.provider.get addr = some p ∧
        (env.overflowChecks = true → i128.Fits (s.penalties addr)) ∧ stats = s.booked addr p := by
  have hzero : i128.wrap 0 = 0 := by decide
  have hsum : ∀ total, sumPenalties env 0 (getSlashHistory s addr) = .ok total ↔
      (env.overflowChecks = true → i128.Fits (s.penalties addr)) ∧
        total = i128.wrap (s.penalties addr) := by
    intro total
    rw [← hzero, sumPenalties_ok_iff total (Int.le_refl 0) (fun _ => by decide) hrecords,
      Int.zero_add]
    rfl
  simp only [getProviderStats, bind_ok_iff, pure_ok_iff, okOr_ok_iff]
  constructor
  · intro h
    obtain ⟨p, hget, total, htotal, rfl⟩ := h
    obtain ⟨hfits, rfl⟩ := (hsum total).mp htotal
    exact ⟨p, hget, hfits, rfl⟩
  · intro h
    obtain ⟨p, hget, hfits, rfl⟩ := h
    exact ⟨p, hget, _, (hsum _).mpr ⟨hfits, rfl⟩, rfl⟩

/-- A challenge is on record for every challenged report of a provider, once. -/
theorem challenges_booked {s : State} {l : List LogEntry} (hbook : ProviderBook s l)
    (hchallenge : ChallengeInvariant s l) (addr : Address) :
    (s.challengesOf addr).length = (s.reportsOf addr).countP s.challengedAt ∧
      (getChallengeHistory s addr).length = (s.challengesOf addr).length := by
  constructor
  · apply length_eq_countP (hchallenge.nodup addr) (reportsOf_nodup s addr)
    intro id
    rw [hchallenge.listed, hbook.mem_reportsOf]
    grind [State.challengedAt]
  · have hstored : ∀ id ∈ s.challengesOf addr, (s.challenge.get id).isSome = true := by
      intro id hid
      obtain ⟨-, -, -, hsome⟩ := (hchallenge.listed addr id).mp hid
      exact hsome
    unfold getChallengeHistory
    rw [List.length_filterMap_eq_countP]
    exact List.countP_eq_length.mpr hstored

/-- A slash is on record for every rejected report of a provider, once, and only
challenged reports are rejected. -/
theorem slashes_booked {s : State} {l : List LogEntry} (hbook : ProviderBook s l)
    (hchallenge : ChallengeInvariant s l) (hslash : SlashInvariant s) (addr : Address) :
    (getSlashHistory s addr).length = (s.reportsOf addr).countP s.rejectedAt ∧
      (s.reportsOf addr).countP s.rejectedAt ≤ (s.reportsOf addr).countP s.challengedAt := by
  constructor
  · rw [← List.length_map SlashRecord.reportId]
    apply length_eq_countP (hslash.nodup addr) (reportsOf_nodup s addr)
    intro id
    rw [hslash.slashed, hbook.mem_reportsOf]
    grind [State.rejectedAt]
  · apply List.countP_mono_left
    intro id _ hrejected
    obtain ⟨report, hget, hstatus⟩ := (Option.any_eq_true _ _).mp hrejected
    obtain ⟨challenge, hfound, -⟩ :=
      (hchallenge.matched id report hget).rejected_iff.mp (of_decide_eq_true hstatus)
    rw [State.challengedAt, hfound]
    rfl

/-- **The books about providers are right.**  In every reachable storage the list
of providers has each of them once, in the order of registration; and whenever
`get_provider_stats` answers, which it does for every registered provider as long
as the sum of its penalties fits, it counts the provider's reports, those that
were challenged and those that were rejected, and the penalties are what the
provider staked and neither withdrew nor has left. -/
theorem provider_books_right (admin : Address) (txs : List Tx) :
    listProviders (machine.run (constructor admin) txs) =
        (machine.log (constructor admin) txs).filterMap (fun e => e.input.call.registers) ∧
      (listProviders (machine.run (constructor admin) txs)).Nodup ∧
      ∀ (env : Env) (addr : Address),
        ((∃ stats, getProviderStats env (machine.run (constructor admin) txs) addr = .ok stats) ↔
          addr ∈ listProviders (machine.run (constructor admin) txs) ∧
            (env.overflowChecks = true →
              i128.Fits ((machine.run (constructor admin) txs).penalties addr))) ∧
        ∀ stats, getProviderStats env (machine.run (constructor admin) txs) addr = .ok stats →
          stats.Exact (machine.run (constructor admin) txs)
            (machine.log (constructor admin) txs) addr := by
  have hbook := providerBook_run admin txs
  have hchallenge := challengeInvariant_run admin txs
  have hstake := stakeInvariant_run admin txs
  have hslash := slashInvariant_run admin txs
  generalize machine.run (constructor admin) txs = s at *
  generalize machine.log (constructor admin) txs = l at *
  refine ⟨hbook.listed, hbook.nodup, ?_⟩
  intro env addr
  have hstats : ∀ stats, getProviderStats env s addr = .ok stats ↔ _ := fun stats =>
    getProviderStats_ok_iff fun record hrecord => (hstake.records addr record hrecord).1
  constructor
  · have hlisted : addr ∈ listProviders s ↔ _ := hbook.known addr
    rw [hlisted, Option.isSome_iff_exists]
    constructor
    · intro h
      obtain ⟨stats, hok⟩ := h
      obtain ⟨p, hget, hfits, -⟩ := (hstats stats).mp hok
      exact ⟨⟨p, hget⟩, hfits⟩
    · intro h
      obtain ⟨⟨p, hget⟩, hfits⟩ := h
      exact ⟨_, (hstats _).mpr ⟨p, hget, hfits, rfl⟩⟩
  · intro stats hok
    obtain ⟨p, hget, -, rfl⟩ := (hstats stats).mp hok
    obtain ⟨hchallenged, hhistory⟩ := challenges_booked hbook hchallenge addr
    obtain ⟨hslashed, hfewer⟩ := slashes_booked hbook hchallenge hslash addr
    have hbalance := hstake.balance addr
    have hnonneg := hstake.nonneg addr
    rw [stakeOf_of_get hget] at hbalance hnonneg
    have hlost : s.penalties addr = added addr l - withdrawn addr l - p.stake := by omega
    exact ⟨hbook.counted addr, hchallenged, hhistory, hslashed,
      hslashed.trans_le (hfewer.trans_eq hchallenged.symm), congrArg i128.wrap hlost, hnonneg⟩

end EcoMint.OracleConsumer
