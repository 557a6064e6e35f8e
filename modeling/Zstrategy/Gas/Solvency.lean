/-
The gas vault along every run of the chain, whatever the receivers of its
ETH do: it can always pay back what is prepaid, and a user's prepaid
balance goes down only by that user's withdrawals and by the debits for
executions of that user's commitments by others.

The refinement is the one of Custody/ over again, with the gas book instead
of the custody book: `GasTracks` is the invariant, `GasTrans` the relation,
and the theorem reads the path of acts that a run gives.
-/
import Zstrategy.Gas.Steps

namespace Zstrategy.Contracts

open Lib Code

variable {net : Net} {free : Prop} {o w : World}

-- ================================================================= the moves

/-- The call points neither of the registry and the gas vault away from
the other. -/
def Call.KeepsGasWire (net : Net) : Call → Prop
  | .setGasVault a => a = net.gasVault
  | .setGasVaultRegistry a => a = net.registry
  | _ => True

/-- Moves that do not re-point the registry or the gas vault. -/
def KeepsGasWire (net : Net) : World → ChainMove → Prop
  | _, .enter (_, call) => call.KeepsGasWire net
  | _, _ => True

/-- Nor bring ETH to the gas vault past its code. -/
def NoForcedEth (net : Net) : World → ChainMove → Prop
  | _, .enter (_, call) => call.KeepsGasWire net
  | _, .outside (.payEth _ dst x) => dst = net.gasVault → x = 0
  | _, _ => True

/-- Neither end of the wire sends a call from outside. -/
theorem opened_gas {i : Msg × Call} (h : (chain net).opened i = true) :
    i.1.sender ≠ net.registry ∧ i.1.sender ≠ net.gasVault := by
  simp only [chain, Net.ours, Bool.and_eq_true, Bool.not_eq_true', Bool.or_eq_false_iff,
    beq_eq_false_iff_ne] at h
  exact h.1.1.1.1

-- ============================================================== entry points

theorem nonpayable_gas {m : Msg} {body : Contract Unit} {Q : Unit → World → Prop}
    (hbody : body.wp (gasRely net free o) Q w) :
    (nonpayable m body).wp (gasRely net free o) Q w := by
  unfold nonpayable
  simp only [wp_bind, wp_require]
  exact gas_check fun _ => hbody

/-- A function that writes nothing of the gas side. -/
theorem ignored_gas {m : Msg} {body : Contract Unit} [hb : body.Frames World.gasView]
    (hw : GasTracks net free o w) :
    (nonpayable m body).wp (gasRely net free o) (fun _ w' => GasAt net free w 0 w') w := by
  have hat : GasAt net free w 0 w := ⟨hw.1, .refl _⟩
  apply nonpayable_gas
  refine wp_mono (hat.frame hw (le_refl _)) ?_
  intro _ w' hw'
  exact hw'.1

/-- Every entry point leaves what its receipt shows. -/
theorem dispatch_gas {m : Msg} {call : Call} (hw : GasTracks net free o w)
    (hopen : (chain net).opened (m, call) = true) (hkeeps : call.KeepsGasWire net) :
    (dispatch net m call).wp (gasRely net free o)
      (fun _ w' => GasAt net free w (call.gasShows m.sender) w') w := by
  obtain ⟨hregistry, hgas⟩ := opened_gas hopen
  have hat : GasAt net free w 0 w := ⟨hw.1, .refl _⟩
  have hnone : Balanced 0 := le_refl _
  cases call with
  | gasDeposit =>
      have hdep := GasVault.deposit_gas (o := o) hgas hat
      rwa [zero_add] at hdep
  | gasReceive =>
      have hdep := GasVault.deposit_gas (o := o) hgas hat
      rwa [zero_add] at hdep
  | gasWithdraw a =>
      have hwith := GasVault.withdraw_gas (a := a) hgas hw hnone hat
      rw [zero_add] at hwith
      exact nonpayable_gas hwith
  | gasDebit u k a h =>
      exact nonpayable_gas (GasVault.foreign_debit_gas hregistry hw.1)
  | setGasVaultRegistry a =>
      have ha : a = net.registry := hkeeps
      rw [ha]
      exact nonpayable_gas (GasVault.setRegistry_gas hat)
  | setGasVault a =>
      have ha : a = net.gasVault := hkeeps
      rw [ha]
      exact nonpayable_gas (CommitmentRegistry.setGasVault_gas hat)
  | registerCommitment h tIn tOut size minOut expiry kind =>
      exact nonpayable_gas (CommitmentRegistry.registerCommitment_gas hw hnone hat)
  | registerCommitmentBatch hs tIn tOut sizes minOuts expiries kind =>
      exact nonpayable_gas (CommitmentRegistry.registerCommitmentBatch_gas hw hnone hat)
  | executeCommitment h n proof fillRef =>
      exact nonpayable_gas (CommitmentRegistry.executeCommitment_gas hgas hw hat)
  | cancelCommitment h n =>
      exact nonpayable_gas (CommitmentRegistry.cancelCommitment_gas hw hnone hat)
  | sweepExpired hs =>
      apply nonpayable_gas
      apply CommitmentRegistry.nonReentrant_gas hat
      intro w' _ hw'
      exact CommitmentRegistry.sweepAll_gas hw hnone hw'
  | adapterSwap x tIn tOut amountIn minOut recipient =>
      rw [dispatch]
      cases net.adapter x with
      | some a => exact ignored_gas hw
      | none => exact trivial
  | _ => exact ignored_gas hw

theorem outside_gas {e : Outside} {w' : World}
    (hfree : ∀ src x, e = .payEth src net.gasVault x → 0 < x → free) (hw : GasTracks net free o w)
    (he : e.effect net w = some w') : GasAt net free w 0 w' := by
  have hat : GasAt net free w 0 w := ⟨hw.1, .refl _⟩
  cases e with
  | externals x => cases he; exact hat.same rfl
  | tick x => cases he; exact hat.same rfl
  | transfer t src dst x =>
      simp only [Outside.effect] at he
      split at he
      case isFalse => cases he
      case isTrue => cases he; exact hat.same rfl
  | mint t dst x =>
      simp only [Outside.effect] at he
      split at he
      case isFalse => cases he
      case isTrue => cases he; exact hat.same rfl
  | payEth src dst x =>
      simp only [Outside.effect] at he
      split at he
      case isFalse => cases he
      case isTrue hg =>
        cases he
        refine hat.silent (.pay src dst x) ⟨hg.1, hg.2, fun hdst hx => ?_⟩ rfl rfl rfl rfl
        apply hfree src x _ hx
        rw [hdst]

/-- The chain keeps to the gas book, one entry point at a time. -/
theorem gas_sound {P : World → ChainMove → Prop} (hP : ∀ w mv, P w mv → KeepsGasWire net w mv)
    (hfree : ∀ w src x, P w (.outside (.payEth src net.gasVault x)) → 0 < x → free)
    (o : World) :
    (chain net).Sound P (GasTracks net free o) (GasTrans net free 0) where
  refl _ := .refl _
  trans _ _ _ h h' := h.after h'
  entry := by
    intro i w hopen hmv hw
    obtain ⟨m, call⟩ := i
    have hcall := dispatch_gas hw hopen (hP w _ hmv)
    show (entry net (m, call)).wp (gasRely net free o) _ w
    unfold entry receipt
    simp only [wp_bind, wp_modify]
    refine wp_mono hcall ?_
    intro _ w' h
    have hpaid : GasAt net free w 0
        { w' with receipts := w'.receipts ++ [⟨w'.timestamp, m.sender, call⟩] } :=
      ⟨h.wired, Ledger.Between.receipt h.trans⟩
    exact ⟨hpaid.tracks hw (le_refl _), hpaid.trans⟩
  outside := by
    intro e w w' hmv hw he
    have h : GasAt net free w 0 w' := by
      apply outside_gas _ hw he
      intro src x hpay hx
      rw [hpay] at hmv
      exact hfree w src x hmv hx
    exact ⟨h.tracks hw (le_refl _), h.trans⟩

-- ================================================================ the theorem

theorem Deployed.exact {w : World} (hd : Deployed w) (hzero : w.eth net.gasVault = 0) :
    w.gasBook.Exact net := by
  unfold GasBook.Exact
  show ∑ u, w.gasVault.balanceOf u = w.eth net.gasVault
  rw [hzero]
  exact Finset.sum_eq_zero fun u _ => hd.gas u

theorem Deployed.solvent {w : World} (hd : Deployed w) : w.gasBook.Solvent net := by
  unfold GasBook.Solvent
  show ∑ u, w.gasVault.balanceOf u ≤ w.eth net.gasVault
  rw [Finset.sum_eq_zero fun u _ => hd.gas u]
  exact Nat.zero_le _

/-- Moves that keep the wire, and moves that also force no ETH in, give a
trail of acts on the gas book: complete between two transactions, and
otherwise up to what unfinished calls still owe. -/
theorem gas_trail {P : World → ChainMove → Prop} (hP : ∀ w mv, P w mv → KeepsGasWire net w mv)
    (hfree : ∀ w src x, P w (.outside (.payEth src net.gasVault x)) → 0 < x → free)
    (hw : GasWired net w) {c : ChainConfig} (hrun : (chain net).Run P ⟨w, []⟩ c) :
    ∃ d, Balanced d ∧ GasTrans net free d w c.world ∧ (c.stack = [] → d = 0) := by
  have hstart : GasTracks net free w w := ⟨hw, 0, le_refl _, .refl _⟩
  obtain ⟨w', stack⟩ := c
  cases stack with
  | nil =>
      have hrel := hrun.rel (gas_sound hP hfree w) hstart
      exact ⟨0, le_refl _, hrel, fun _ => rfl⟩
  | cons f rest =>
      obtain ⟨-, d, hd, htrans⟩ := hrun.inv (gas_sound hP hfree w) hstart
      refine ⟨d, hd, htrans, fun hnil => ?_⟩
      cases hnil

theorem balanced_shown (rs : List Receipt) :
    Balanced (Ledger.shown Receipt.gasShows rs) := by
  induction rs with
  | nil => exact le_refl _
  | cons r rs ih =>
      have hcons : Ledger.shown Receipt.gasShows (r :: rs)
          = r.gasShows + Ledger.shown Receipt.gasShows rs := rfl
      rw [hcons]
      refine Balanced.add ?_ ih
      obtain ⟨timestamp, sender, call⟩ := r
      cases call with
      | executeCommitment h n proof fillRef => exact balanced_settled h sender
      | _ => exact bot_le

/-- The gas vault under hostile re-entry. In every configuration of every
run its ETH covers what is prepaid, and is exactly that if none is forced
in. A balance goes down by a withdrawal of its owner, or by a debit for an
execution of its owner's commitment by the receiver, somebody else; each
commitment is debited for once, and never when its owner executed it. The
withdrawals and executions are those of the calls that returned. -/
theorem gas_vault_solvent {w : World} (hd : Deployed w) (hw : GasWired net w) {c : ChainConfig}
    (hrun : (chain net).Run (KeepsGasWire net) ⟨w, []⟩ c) :
    ∑ u, c.world.gasVault.balanceOf u ≤ c.world.eth net.gasVault
      ∧ (w.eth net.gasVault = 0 → (chain net).Run (NoForcedEth net) ⟨w, []⟩ c →
          ∑ u, c.world.gasVault.balanceOf u = c.world.eth net.gasVault)
      ∧ ∃ acts unpaid, (gasLedger net True).Path w.gasBook acts c.world.gasBook
        ∧ (gasLedger net True).owed acts
            = unpaid + Ledger.shown Receipt.gasShows c.world.receipts
        ∧ (c.stack = [] → unpaid = 0)
        ∧ Fair acts c.world.gasBook
        ∧ ∀ a ∈ acts, ∀ b u, a.guard net True b →
          (a.effect net b).balance u < b.balance u →
          ∃ k x, (a = .withdraw u x ∧ k = u ∨ ∃ h, a = .debit u k x h)
            ∧ (a.effect net b).balance u + x = b.balance u
            ∧ (a.effect net b).eth k = b.eth k + x := by
  have htrail : ∃ d, Balanced d ∧ GasTrans net True d w c.world ∧ (c.stack = [] → d = 0) :=
    gas_trail (fun _ _ h => h) (fun _ _ _ _ _ => trivial) hw hrun
  obtain ⟨unpaid, hbal, ⟨acts, rs, hpath, hreceipts, howed⟩, hdone⟩ := htrail
  have hrs : c.world.receipts = rs := by
    rw [← List.nil_append rs, ← hd.receipts]
    exact hreceipts
  have hsolvent : c.world.gasBook.Solvent net := stays_solvent hpath hd.solvent
  unfold GasBook.Solvent at hsolvent
  refine ⟨hsolvent, ?_, acts, unpaid, hpath, ?_, hdone, ?_, ?_⟩
  · intro hzero hquiet
    have hkeeps : ∀ w mv, NoForcedEth net w mv → KeepsGasWire net w mv := by
      intro w mv h
      cases mv with
      | enter i => exact h
      | _ => trivial
    have hnone : ∀ w src x, NoForcedEth net w (.outside (.payEth src net.gasVault x)) →
        0 < x → False := by
      intro w src x h hx
      have hzero : x = 0 := h rfl
      omega
    have hquiettrail : ∃ d, Balanced d ∧ GasTrans net False d w c.world ∧ (c.stack = [] → d = 0) :=
      gas_trail hkeeps hnone hw hquiet
    obtain ⟨d, -, ⟨acts', rs', hquietpath, -, -⟩, -⟩ := hquiettrail
    have hexact : c.world.gasBook.Exact net := stays_exact hquietpath (hd.exact hzero)
    unfold GasBook.Exact at hexact
    exact hexact
  · rw [howed, hrs]
  · apply fair_path hpath
    rw [howed]
    exact hbal.add (balanced_shown rs)
  · intro a _ b u hg hlow
    exact GasAct.lowered hg hlow

-- ================================================================== a sample

/-- User 8 has ETH. -/
def samplePrepaid : World :=
  { sampleWorld with eth := fun a => if a = 8 then 1000 else 0 }

theorem samplePrepaid_deployed : Deployed samplePrepaid :=
  ⟨sampleWorld_deployed.registry, sampleWorld_deployed.free, sampleWorld_deployed.locked,
    sampleWorld_deployed.vaultEntered, sampleWorld_deployed.gas,
    sampleWorld_deployed.gasEntered, rfl, rfl⟩

/-- User 8 prepays 500 and orders; user 9 executes for 120, and deposits 20
of it while the debit is still under way. -/
def sampleDebit : List ChainMove :=
  sampleSetup ++
    [call 7 (.setPriceFeed 10 30), call 7 (.setPriceFeed 11 31),
      .enter (⟨8, 500, 1, 1⟩, .gasDeposit),
      call 8 (.registerCommitment 77 10 11 60 5 2000 .ORDER_FILL),
      .enter (⟨9, 0, 10, 10⟩, .executeCommitment 77 500 [] 0), .answer ⟨60, 60⟩,
      .enter (⟨9, 20, 1, 1⟩, .gasDeposit)]

theorem gas_vault_solvent_sample :
    ∃ c, (chain sampleNet).play sampleDebit ⟨samplePrepaid, []⟩ = some c
      ∧ c.stack.length = 1 ∧ c.world.eth 2 = 400 ∧ c.world.gasVault.balanceOf 8 = 380
      ∧ ∑ u, c.world.gasVault.balanceOf u = 400 := by
  have hplay : ((chain sampleNet).play sampleDebit ⟨samplePrepaid, []⟩).map
      (fun c => (c.stack.length, c.world.eth 2, c.world.gasVault.balanceOf 8))
        = some (1, 400, 380) := by
    decide +kernel
  obtain ⟨c, hc, hval⟩ := Option.map_eq_some_iff.1 hplay
  obtain ⟨hlen, hrest⟩ := Prod.mk.inj hval
  obtain ⟨heth, hbalance⟩ := Prod.mk.inj hrest
  have hkeeps : ∀ s, ∀ m ∈ sampleDebit, KeepsGasWire sampleNet s m := by
    simp [sampleDebit, sampleSetup, call, KeepsGasWire, Call.KeepsGasWire]
  have hquiet : ∀ s, ∀ m ∈ sampleDebit, NoForcedEth sampleNet s m := by
    simp [sampleDebit, sampleSetup, call, NoForcedEth, Call.KeepsGasWire]
  have hwired : GasWired sampleNet samplePrepaid := rfl
  obtain ⟨-, hexact, -⟩ := gas_vault_solvent samplePrepaid_deployed hwired (.of_play hkeeps hc)
  exact ⟨c, hc, hlen, heth, hbalance, (hexact rfl (.of_play hquiet hc)).trans heth⟩

end Zstrategy.Contracts
