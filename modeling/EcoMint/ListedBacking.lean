import EcoMint.DexEscrow
import EcoMint.RedemptionSolvency

/-!
# Are listed tokens backed by the seller's balance?

The escrow is a number in the router; the tokens stay in the issuer.  A
purchase takes the same amount off both.  But a listing is checked against the
whole balance and not against what is left beside the escrow, and a direct
transfer does not look at the escrow at all.  Those two are the only ways to
lose the backing of a bond that has not matured.
-/

namespace EcoMint

open Fallible Storage

namespace BondIssuer

/-- The bond is matured. -/
def State.Matured (s : State) (bondId : Nat) : Prop :=
  ∃ state, s.bondState.get bondId = some state ∧ state.status = .matured

/-- What a call sends away from a holder of a bond. -/
def sentBy (bondId : Nat) (holder : Address) : Call → Int
  | .transfer sender _ b amount _ => if b = bondId ∧ sender = holder then amount else 0
  | _ => 0

/-- Matured bonds stay matured. -/
theorem State.Matured.exec {env : Env} {registries : Registries} {s s' : State} {call : Call}
    {out : Output} {bondId : Nat} (hs : SupplyInvariant s) (hm : s.Matured bondId)
    (h : exec env registries s call = .ok (out, s')) : s'.Matured bondId := by
  obtain ⟨state, hstate, hmatured⟩ := hm
  cases bondStep_exec hs h bondId with
  | unissued hnone =>
      have hissued := (hs.issued_iff bondId).mp (by simp [hstate])
      simp [hnone] at hissued
  | steady _ _ _ _ _ _ hkeep => exact ⟨state, hkeep state hstate hmatured, hmatured⟩
  | funded _ _ _ _ _ _ _ hkeep => exact ⟨state, hkeep.trans hstate, hmatured⟩
  | redeemed config state' _ _ hrecord hrecord' =>
      obtain rfl : state' = state := by simpa [hrecord] using hstate
      exact ⟨_, hrecord', hmatured⟩

/-- A transfer takes its amount from the sender. -/
theorem transfer_balance {env : Env} {s s' : State} {sender recipient : Address} {b : Nat}
    {amount : Int} {nonce : Nat} (h : transfer env s sender recipient b amount nonce = .ok s') :
    ¬ s.Matured b ∧ s'.bondState = s.bondState ∧
      s'.holderBalance.read (b, sender) = s.holderBalance.read (b, sender) - amount ∧
      ∀ k, k ≠ (b, sender) → s.holderBalance.read k ≤ s'.holderBalance.read k := by
  obtain ⟨-, -, hne, hpos, config, -, state, hstate, hactive, -, -, -, -, rfl⟩ :=
    transfer_ok_iff.mp h
  refine ⟨?_, rfl, ?_, ?_⟩
  · rintro ⟨state', hstate', hmatured⟩
    obtain rfl : state = state' := by simpa [hstate] using hstate'
    simp [hactive] at hmatured
  · show ((s.holderBalance.credit _ _).credit _ _).read _ = _
    rw [read_credit_ne _ _ (by simpa using Ne.symm hne), read_credit_self]
    omega
  · intro k hk
    show _ ≤ ((s.holderBalance.credit _ _).credit _ _).read _
    rw [read_credit, read_credit_ne _ _ hk]
    split <;> omega

/-- Of an unmatured bond, a holder loses only what the holder sends. -/
theorem balance_exec {env : Env} {registries : Registries} {s s' : State} {call : Call}
    {out : Output} {b : Nat} (h : exec env registries s call = .ok (out, s'))
    (hm : ¬ s.Matured b) (holder : Address) :
    s.holderBalance.read (b, holder) - sentBy b holder call ≤
      s'.holderBalance.read (b, holder) := by
  cases call with
  | setAdmin currentAdmin newAdmin =>
      obtain ⟨-, -, rfl⟩ := setAdmin_ok_iff.mp (silent_ok_iff.mp h).1
      simp [sentBy]
  | setProjectRegistry caller registry nonce =>
      obtain ⟨-, -, -, rfl⟩ := setProjectRegistry_ok_iff.mp (silent_ok_iff.mp h).1
      simp [sentBy, State.bump]
  | issueBond caller config nonce =>
      simp only [exec, bind_ok_iff, pure_ok_iff, Prod.mk.injEq] at h
      obtain ⟨⟨bondId, s''⟩, hissue, -, rfl⟩ := h
      obtain ⟨-, -, -, -, -, rfl⟩ := issueBond_ok hissue
      simp [sentBy, State.bump]
  | subscribe investor bondId amount nonce =>
      obtain ⟨-, -, hpos, -, -, -, -, -, -, -, -, -, rfl⟩ :=
        subscribe_ok_iff.mp (silent_ok_iff.mp h).1
      show _ ≤ (s.holderBalance.credit _ _).read _
      rw [read_credit]
      simp only [sentBy]
      split <;> omega
  | transfer sender recipient bondId amount nonce =>
      obtain ⟨-, -, hsender, hothers⟩ := transfer_balance (silent_ok_iff.mp h).1
      by_cases hk : (b, holder) = (bondId, sender)
      · obtain ⟨rfl, rfl⟩ := Prod.mk.inj hk
        simp [sentBy, hsender]
      · have hle := hothers _ hk
        have hsent : sentBy b holder (.transfer sender recipient bondId amount nonce) = 0 := by
          simp only [sentBy, ite_eq_right_iff]
          rintro ⟨rfl, rfl⟩
          exact absurd rfl hk
        omega
  | fundRedemption caller bondId amount nonce =>
      obtain ⟨-, -, -, -, -, -, rfl⟩ := fundRedemption_ok_iff.mp (silent_ok_iff.mp h).1
      simp [sentBy, State.bump]
  | redeem redeemer bondId amount nonce =>
      obtain ⟨-, -, -, state, hstate, _, -, hmatured, -, -, -, -, -, rfl⟩ :=
        redeem_ok_iff.mp (silent_ok_iff.mp h).1
      have hne : b ≠ bondId := by
        rintro rfl
        exact hm ⟨state, hstate, hmatured⟩
      show _ ≤ (s.holderBalance.credit _ _).read _
      rw [read_credit_ne _ _ (by simp [hne])]
      simp [sentBy]
  | matureBond caller bondId nonce =>
      obtain ⟨-, -, -, _, -, _, -, -, -, rfl⟩ := matureBond_ok_iff.mp (silent_ok_iff.mp h).1
      simp [sentBy, State.bump]

end BondIssuer

/-- What a seller has in escrow on a bond not yet matured, the seller holds. -/
def World.Backed (w : World) : Prop :=
  ∀ bondId seller, ¬ w.issuer.Matured bondId →
    DexRouter.getSellerBondEscrow w.dex seller bondId ≤
      BondIssuer.getHolderBalance w.issuer bondId seller

/-- A direct transfer leaves the sender what the sender has in escrow, and a
listing is covered by what the seller holds beside the escrow. -/
def LogEntry.KeepsBacking (e : LogEntry) : Prop :=
  match e.input.call with
  | .issuer (.transfer sender _ bondId amount _) =>
      DexRouter.getSellerBondEscrow e.before.dex sender bondId + amount ≤
        BondIssuer.getHolderBalance e.before.issuer bondId sender
  | .dex (.listBondTokens seller bondId amount _ _ _ _) =>
      ¬ e.before.issuer.Matured bondId →
        DexRouter.getSellerBondEscrow e.before.dex seller bondId + amount ≤
          BondIssuer.getHolderBalance e.before.issuer bondId seller
  | _ => True

/-- An issuer call that sends nothing keeps everything backed. -/
theorem World.Backed.issuer_exec {w : World} {env : Env} {registries : BondIssuer.Registries}
    {call : BondIssuer.Call} {out : BondIssuer.Output} {s : BondIssuer.State}
    (hs : BondIssuer.SupplyInvariant w.issuer) (hw : w.Backed)
    (h : BondIssuer.exec env registries w.issuer call = .ok (out, s))
    (hsent : ∀ bondId holder, BondIssuer.sentBy bondId holder call = 0) :
    ({ w with issuer := s } : World).Backed := by
  intro bondId seller hm
  have hm' : ¬ w.issuer.Matured bondId := fun hm' => hm (hm'.exec hs h)
  have hbalance := BondIssuer.balance_exec h hm' seller
  rw [hsent] at hbalance
  have hbefore := hw bondId seller hm'
  unfold DexRouter.getSellerBondEscrow BondIssuer.getHolderBalance at *
  show w.dex.bondEscrow.read (bondId, seller) ≤ s.holderBalance.read (bondId, seller)
  omega

/-- A direct transfer keeps the backing exactly if the sender keeps enough. -/
theorem backed_transfer_iff {w : World} {env : Env} {s : BondIssuer.State}
    {sender recipient : Address} {b : Nat} {amount : Int} {nonce : Nat} (hw : w.Backed)
    (h : BondIssuer.transfer env w.issuer sender recipient b amount nonce = .ok s) :
    ({ w with issuer := s } : World).Backed ↔
      w.dex.bondEscrow.read (b, sender) + amount ≤ w.issuer.holderBalance.read (b, sender) := by
  obtain ⟨hm, hstate, hsender, hothers⟩ := BondIssuer.transfer_balance h
  have hmatured : ∀ bondId, s.Matured bondId ↔ w.issuer.Matured bondId := by
    intro bondId
    unfold BondIssuer.State.Matured
    rw [hstate]
  constructor
  · intro hw'
    have hle : w.dex.bondEscrow.read (b, sender) ≤ s.holderBalance.read (b, sender) :=
      hw' b sender fun hm' => hm ((hmatured b).mp hm')
    omega
  · intro hle bondId seller hm'
    show w.dex.bondEscrow.read (bondId, seller) ≤ s.holderBalance.read (bondId, seller)
    by_cases hk : (bondId, seller) = (b, sender)
    · rw [hk]
      omega
    · have hbefore : w.dex.bondEscrow.read (bondId, seller) ≤
          w.issuer.holderBalance.read (bondId, seller) :=
        hw bondId seller fun hm'' => hm' ((hmatured bondId).mpr hm'')
      exact hbefore.trans (hothers _ hk)

open DexRouter in
/-- A router call that lists nothing keeps everything backed: a cancellation
shrinks the escrow, and a purchase takes the same amount off both. -/
theorem World.Backed.dex_step {w : World} {env : Env} {call : DexRouter.Call}
    {issuer : Option BondIssuer.State} {s : DexRouter.State} (hs : EscrowInvariant w.dex)
    (hw : w.Backed) (hstep : OrderStep env w.issuerAt w.dex s issuer call)
    (hlists : listedBy call = none) :
    ({ w with issuer := issuer.getD w.issuer, dex := s } : World).Backed := by
  have hsame : issuer = none → (∀ k, s.bondEscrow.read k ≤ w.dex.bondEscrow.read k) →
      ({ w with issuer := issuer.getD w.issuer, dex := s } : World).Backed := by
    rintro rfl hle bondId seller hm
    exact (hle (bondId, seller)).trans (hw bondId seller hm)
  cases hstep with
  | idle _ _ hescrow hissuer => exact hsame hissuer fun k => by rw [hescrow]
  | listed _ _ _ hlisted => simp [hlisted] at hlists
  | cancelled id order hget hlive _ _ hescrow hissuer =>
      have hpos := hs.live_pos id order hget hlive
      have hle := amount_le_escrow hs hget hlive
      have hfits :
          IntRange.i128.Fits (w.dex.bondEscrow.read (order.bondId, order.seller) - order.amount) :=
        (hs.fits (order.bondId, order.seller)).of_nonneg_of_le _ (by omega) (by omega)
      refine hsame hissuer fun k => ?_
      rw [hescrow, IntRange.checkedSub, IntRange.checked_of_fits _ hfits, Option.getD_some,
        read_set]
      split
      · next hk =>
          subst hk
          omega
      · exact le_rfl
  | bought id order buyer amount _ _ hpos _ _ htransfer _ _ hescrow =>
      obtain ⟨address, before, after, -, hbefore, rfl, htransfer⟩ := htransfer
      obtain rfl := World.eq_issuer_of_issuerAt hbefore
      obtain ⟨-, hstate, hsender, hothers⟩ := BondIssuer.transfer_balance htransfer
      intro bondId seller hm
      have hm' : ¬ w.issuer.Matured bondId := by
        unfold BondIssuer.State.Matured at hm ⊢
        rwa [Option.getD_some, hstate] at hm
      have hbacked : w.dex.bondEscrow.read (bondId, seller) ≤
          w.issuer.holderBalance.read (bondId, seller) := hw bondId seller hm'
      show s.bondEscrow.read (bondId, seller) ≤ after.holderBalance.read (bondId, seller)
      rw [hescrow, read_credit]
      by_cases hk : (bondId, seller) = (order.bondId, order.seller)
      · rw [if_pos hk, hk]
        rw [hk] at hbacked
        omega
      · have := hothers _ hk
        rw [if_neg hk]
        omega
  | swept base _ hescrow _ hafter hissuer =>
      refine hsame hissuer fun k => ?_
      rw [hafter, sweepOrders_bondEscrow, hescrow]

open DexRouter in
/-- A listing keeps the backing exactly if the seller holds enough beside the
escrow, or the bond has matured. -/
theorem backed_listed_iff {w : World} {env : Env} {call : DexRouter.Call}
    {issuer : Option BondIssuer.State} {s : DexRouter.State} {b : Nat} {seller : Address}
    {amount : Int} (hw : w.Backed) (hstep : OrderStep env w.issuerAt w.dex s issuer call)
    (hlists : listedBy call = some (b, seller, amount)) :
    ({ w with issuer := issuer.getD w.issuer, dex := s } : World).Backed ↔
      (¬ w.issuer.Matured b → w.dex.bondEscrow.read (b, seller) + amount ≤
        w.issuer.holderBalance.read (b, seller)) := by
  cases hstep with
  | idle _ _ _ _ hnone => simp [hnone] at hlists
  | cancelled _ _ _ _ _ _ _ _ hnone => simp [hnone] at hlists
  | bought _ _ _ _ _ _ _ _ _ _ _ _ _ hnone => simp [hnone] at hlists
  | swept _ _ _ _ _ _ hnone => simp [hnone] at hlists
  | listed order _ _ hlisted _ _ _ _ _ hescrow hissuer =>
      subst hissuer
      obtain ⟨rfl, rfl, rfl⟩ : order.bondId = b ∧ order.seller = seller ∧ order.amount = amount := by
        simpa [hlisted] using hlists
      constructor
      · intro hw' hm
        have hle : s.bondEscrow.read (order.bondId, order.seller) ≤
            w.issuer.holderBalance.read (order.bondId, order.seller) :=
          hw' order.bondId order.seller hm
        rwa [hescrow, read_credit_self] at hle
      · intro hle bondId seller hm
        have hbefore : w.dex.bondEscrow.read (bondId, seller) ≤
            w.issuer.holderBalance.read (bondId, seller) := hw bondId seller hm
        show s.bondEscrow.read (bondId, seller) ≤ w.issuer.holderBalance.read (bondId, seller)
        rw [hescrow, read_credit]
        split
        · next hk =>
            obtain ⟨rfl, rfl⟩ := Prod.mk.inj hk
            exact hle hm
        · omega

/-- **Listed tokens.**  Every seller holds at least what is in escrow, for every
bond not yet matured and all along a run, exactly if every accepted direct
transfer leaves its sender the escrowed amount and every accepted listing is
covered by what the seller holds beside the escrow. -/
theorem listed_tokens_backed_iff (d : Deployment) (txs : List Tx) :
    (∀ pre, pre <+: txs → (machine.run (deploy d) pre).Backed) ↔
      ∀ e ∈ machine.log (deploy d) txs, LogEntry.KeepsBacking e := by
  rw [← Machine.forall_prefix_iff_forall_mem]
  refine machine.holds_iff
    (I := fun w _ => BondIssuer.SupplyInvariant w.issuer ∧ DexRouter.EscrowInvariant w.dex)
    (P := fun w _ => w.Backed) (C := fun _ e => LogEntry.KeepsBacking e)
    (fun calls => ⟨supplyInvariant d calls, escrowInvariant d calls⟩) ?_ ?_ txs
  · intro bondId seller _
    simp [deploy, DexRouter.constructor, DexRouter.getSellerBondEscrow, BondIssuer.constructor,
      BondIssuer.getHolderBalance]
  · rintro _ ⟨w, tx, out, w'⟩ hfires ⟨hsupply, hescrow⟩ hw
    unfold LogEntry.KeepsBacking
    cases worldStep_of_execute hfires with
    | oracle call o s hcall hout hexec hafter =>
        rw [hafter, hcall]
        exact iff_of_true hw trivial
    | engine call o s hcall hout hexec hafter =>
        rw [hafter, hcall]
        exact iff_of_true hw trivial
    | retirement call o s hcall hout hexec hafter =>
        rw [hafter, hcall]
        exact iff_of_true hw trivial
    | issuer call o s hcall hout hexec hafter =>
        rw [hafter, hcall]
        cases call with
        | transfer sender recipient bondId amount nonce =>
            exact backed_transfer_iff hw (BondIssuer.silent_ok_iff.mp hexec).1
        | setAdmin | setProjectRegistry | issueBond | subscribe | fundRedemption | redeem
        | matureBond =>
            exact iff_of_true (hw.issuer_exec hsupply hexec fun _ _ => rfl) trivial
    | dex call o issuer s hcall hout hexec hafter =>
        have hstep := DexRouter.orderStep_exec hexec
        rw [hafter, hcall]
        cases call with
        | listBondTokens seller bondId amount price asset seconds nonce =>
            exact backed_listed_iff hw hstep rfl
        | setAdmin | cancelListing | executePurchase | depositQuote | withdrawQuote
        | cleanExpiredOrders =>
            exact iff_of_true (hw.dex_step hescrow hstep rfl) trivial

/-- One seller lists the same 500 tokens twice. -/
def doubleListing : List Tx := [
  sampleTx 1 0 (.issuer (.issueBond 0 BondIssuer.sampleConfig 0)),
  sampleTx 2 1 (.issuer (.subscribe 1 1 500 0)),
  sampleTx 3 1 (.dex (.listBondTokens 1 1 500 5 "USDC" 10 0)),
  sampleTx 3 1 (.dex (.listBondTokens 1 1 500 5 "USDC" 10 1))]

/-- Both listings are accepted: 1000 tokens in escrow, 500 held, and the bond is
still active. -/
theorem listed_tokens_unbacked_by_second_listing :
    ¬ ∀ (d : Deployment) (txs : List Tx), (machine.run (deploy d) txs).Backed := by
  intro h
  have hactive : ¬ (machine.run (deploy sampleDeployment) doubleListing).issuer.Matured 1 := by
    rintro ⟨state, hstate, hmatured⟩
    have hrecord : (machine.run (deploy sampleDeployment) doubleListing).issuer.bondState.get 1 =
        some ⟨500, .active, 1⟩ := by decide +kernel
    obtain rfl := Option.some.inj (hrecord.symm.trans hstate)
    cases hmatured
  have hle := h sampleDeployment doubleListing 1 1 hactive
  have hescrow : DexRouter.getSellerBondEscrow
      (machine.run (deploy sampleDeployment) doubleListing).dex 1 1 = 1000 := by decide +kernel
  have hheld : BondIssuer.getHolderBalance
      (machine.run (deploy sampleDeployment) doubleListing).issuer 1 1 = 500 := by decide +kernel
  rw [hescrow, hheld] at hle
  omega

end EcoMint
