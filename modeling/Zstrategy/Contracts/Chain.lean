/-
The chain our contracts live on: which calls outside code can make, what
each runs, and what outside code can change by itself. `chain` packs
these into a re-entrant machine; its runs are all sequences of
transactions, with every nesting of calls that hostile tokens, adapters,
vaults, routers and ETH receivers can produce.

Outside code is sent from addresses that are not ours (`Net.ours`): our
contracts only make the calls their own code makes, and a standard token
makes none. It can move standard tokens it holds, move ETH (also into the
gas vault, by force), and change what it answers to static calls. Time
passes between transactions only.

# What is asked of a run

Nothing is asked by default: a run may contain any call from any address
that is not ours, nested in any way. Each theorem restricts the moves as far
as it must (`KeepsWiring`, `NoGift` and their like), by a condition on a
move and the state it is made in.
-/
import Zstrategy.Lib.Reentrancy
import Zstrategy.Contracts.CommitmentRegistry

namespace Zstrategy.Contracts

open Lib Code

variable (net : Net)

-- ============================================================== dispatching

/-- Solidity rejects value sent to a function that is not payable. -/
def nonpayable (m : Msg) (body : Contract Unit) : Contract Unit := do
  require (m.value.val = 0) "nonpayable"
  body

/-- The code behind each public entry point. -/
def dispatch (m : Msg) : Call → Contract Unit
  | .deposit v t a => nonpayable m (CollateralVault.deposit net m v t a)
  | .withdraw v t a => nonpayable m (CollateralVault.withdraw net m v t a)
  | .lockCollateral v h u t a =>
      nonpayable m (CollateralVault.lockCollateral m.sender v h u t a)
  | .releaseForExecution v h t a dst =>
      nonpayable m (CollateralVault.releaseForExecution net m.sender v h t a dst)
  | .returnCollateral v h u t a =>
      nonpayable m (CollateralVault.returnCollateral m.sender v h u t a)
  | .setVaultRegistry v a => nonpayable m (CollateralVault.setRegistry m v a)
  | .transferVaultOwnership v a =>
      nonpayable m (CollateralVault.transferOwnership m v a)
  | .renounceVaultOwnership v =>
      nonpayable m (CollateralVault.renounceOwnership m v)
  | .registerCommitment h tIn tOut size minOut expiry kind =>
      nonpayable m (CommitmentRegistry.registerCommitment net m h tIn tOut size
        minOut expiry kind)
  | .registerCommitmentBatch hs tIn tOut sizes minOuts expiries kind =>
      nonpayable m (CommitmentRegistry.registerCommitmentBatch net m hs tIn tOut
        sizes minOuts expiries kind)
  | .executeCommitment h n proof fillRef =>
      nonpayable m (CommitmentRegistry.executeCommitment net m h n proof fillRef)
  | .cancelCommitment h n =>
      nonpayable m (CommitmentRegistry.cancelCommitment net m h n)
  | .sweepExpired hs => nonpayable m (CommitmentRegistry.sweepExpired net hs)
  | .pause => nonpayable m (CommitmentRegistry.pause m)
  | .unpause => nonpayable m (CommitmentRegistry.unpause m)
  | .setDEXAdapter a => nonpayable m (CommitmentRegistry.setDEXAdapter m a)
  | .setGasVault a => nonpayable m (CommitmentRegistry.setGasVault m a)
  | .setCollateralVault a =>
      nonpayable m (CommitmentRegistry.setCollateralVault m a)
  | .setGuardian a => nonpayable m (CommitmentRegistry.setGuardian m a)
  | .setPriceFeed t f => nonpayable m (CommitmentRegistry.setPriceFeed m t f)
  | .setOracleStaleness x =>
      nonpayable m (CommitmentRegistry.setOracleStaleness m x)
  | .setVerifier k v => nonpayable m (CommitmentRegistry.setVerifier m k v)
  | .gasDeposit => GasVault.deposit net m
  | .gasReceive => GasVault.deposit net m
  | .gasWithdraw a => nonpayable m (GasVault.withdraw net m a)
  | .gasDebit u k a h =>
      nonpayable m (GasVault.debit net m.sender u k a.val h)
  | .setGasVaultRegistry a => nonpayable m (GasVault.setRegistry m a)
  | .transferGasVaultOwnership a => nonpayable m (GasVault.transferOwnership m a)
  | .renounceGasVaultOwnership => nonpayable m (GasVault.renounceOwnership m)
  | .adapterSwap x tIn tOut amountIn minOut recipient =>
      match net.adapter x with
      | some a => nonpayable m do
          let _ ← UniswapV3Adapter.swap net x a tIn tOut amountIn minOut recipient
      | none => fun _ => .revert "no such contract"

/-- Note that the call returned. -/
def receipt (m : Msg) (call : Call) : Contract Unit :=
  modify fun w =>
    { w with receipts := w.receipts ++ [⟨w.timestamp, m.sender, call⟩] }

def entry (i : Msg × Call) : Contract Unit := do
  dispatch net i.1 i.2
  receipt i.1 i.2

/-- The call names an instance that exists. -/
def Call.onNet : Call → Bool
  | .deposit v _ _ | .withdraw v _ _ | .lockCollateral v _ _ _ _
  | .releaseForExecution v _ _ _ _ | .returnCollateral v _ _ _ _
  | .setVaultRegistry v _ | .transferVaultOwnership v _
  | .renounceVaultOwnership v => net.isVault v
  | _ => true

-- ============================================================== the outside

/-- What outside code changes by itself. -/
inductive Outside where
  | externals (ext : Externals)
  | transfer (token src dst : Address) (amount : ℕ)
  | mint (token dst : Address) (amount : ℕ)
  | payEth (src dst : Address) (amount : ℕ)
  | tick (seconds : ℕ)

/-- A vault never approves a spender, so nobody else moves its tokens; the
gas vault's ETH leaves through its own code only. -/
def Outside.effect : Outside → World → Option World
  | .externals ext, w => some { w with ext := ext }
  | .transfer t src dst a, w =>
      if net.standard t = true ∧ net.isVault src = false
          ∧ a ≤ w.balances t src then
        some (w.moveToken t src dst a)
      else none
  | .mint t dst a, w =>
      if net.standard t = true then
        some (w.mintToken t dst a)
      else none
  | .payEth src dst a, w =>
      if src ≠ net.gasVault ∧ a ≤ w.eth src then some (w.moveEth src dst a)
      else none
  | .tick s, w => some { w with timestamp := w.timestamp + s }

def Outside.idle : Outside → Bool
  | .tick _ => true
  | _ => false

abbrev ChainMove := Move Reply (Msg × Call) Outside

abbrev ChainConfig := Config World Request Reply

/-- The chain as a re-entrant machine. Any reply can come back. -/
def chain : System World Request Reply (Msg × Call) Outside where
  entry := entry net
  opened i := !net.ours i.1.sender && i.2.onNet net
  answers _ _ := true
  outside := Outside.effect net
  idle := Outside.idle

-- ============================================================== deployment

/-- A world in which the contracts have just been deployed: the
registry's storage is the constructor's, the vaults hold no balance and
nobody is inside a guarded function. Owners, and which registry each
vault points to, are left open. -/
structure Deployed (w : World) : Prop where
  registry : ∃ gasVault vault dexAdapter guardian,
    CommitmentRegistry.constructor gasVault vault dexAdapter guardian
      = .ok w.registry
  free : ∀ v u t, (w.vaults v).freeBalance u t = 0
  locked : ∀ v h t, (w.vaults v).lockedBalance h t = 0
  vaultEntered : ∀ v, (w.vaults v).entered = false
  gas : ∀ u, w.gasVault.balanceOf u = 0
  gasEntered : w.gasVault.entered = false
  log : w.log = []
  receipts : w.receipts = []

/-- Configurations of runs from a deployment, by any moves. -/
def Reachable (c : ChainConfig) : Prop :=
  ∃ w, Deployed w ∧ (chain net).Run anyMove ⟨w, []⟩ c

/-- The registry and the vault at `v` point to each other. -/
structure Wired (v : Address) (w : World) : Prop where
  isVault : net.isVault v = true
  vault : w.registry.vault = v
  registry : (w.vaults v).registry = net.registry

/-- The call points neither of `v` and the registry away from the other. -/
def Call.KeepsWiring (v : Address) : Call → Prop
  | .setCollateralVault a => a = v
  | .setVaultRegistry x a => x = v → a = net.registry
  | _ => True

/-- Moves that do not re-point `v` or the registry. -/
def KeepsWiring (v : Address) : World → ChainMove → Prop
  | _, .enter (_, call) => call.KeepsWiring net v
  | _, _ => True

theorem Deployed.commitments {w : World} (h : Deployed w) (x : Bytes32) :
    w.registry.commitments x = .empty := by
  obtain ⟨g, v, d, u, hr⟩ := h.registry
  unfold CommitmentRegistry.constructor at hr
  split_ifs at hr
  injection hr with hr
  rw [← hr]

theorem Deployed.nullifiers {w : World} (h : Deployed w) (x : Bytes32) :
    w.registry.nullifiers x = false := by
  obtain ⟨g, v, d, u, hr⟩ := h.registry
  unfold CommitmentRegistry.constructor at hr
  split_ifs at hr
  injection hr with hr
  rw [← hr]

-- ================================================================= a sample

/-- One vault at 3, the adapter at 4 over the router at 5, and the two
standard tokens 10 and 11. -/
def sampleNet : Net where
  registry := 1
  gasVault := 2
  isVault v := v == 3
  adapter a := if a = 4 then some ⟨5, 3000⟩ else none
  standard t := t == 10 || t == 11

/-- A wired deployment. The guardian is 7, user 8 holds both tokens, and
every proof is accepted. -/
def sampleWorld : World where
  timestamp := 1000
  registry :=
    { entered := false, verifiers := fun _ => 0, vault := 3, dexAdapter := 4,
      gasVault := 2, guardian := 7, paused := false, oracleStaleness := 3600,
      priceFeeds := fun _ => 0, commitments := fun _ => .empty,
      nullifiers := fun _ => false }
  vaults _ := ⟨false, 7, 1, fun _ _ => 0, fun _ _ => 0⟩
  gasVault := ⟨false, 7, 1, fun _ => 0⟩
  routerApproved _ _ := false
  balances _ a := if a = 8 then 1000 else 0
  eth _ := 0
  ext := ⟨fun _ => some ⟨10 ^ 8, 1000, 8⟩, fun _ _ _ => true, fun _ _ _ _ => false⟩
  log := []
  receipts := []

theorem sampleWorld_deployed : Deployed sampleWorld where
  registry := ⟨2, 3, 4, 7, rfl⟩
  free _ _ _ := rfl
  locked _ _ _ := rfl
  vaultEntered _ := rfl
  gas _ := rfl
  gasEntered := rfl
  log := rfl
  receipts := rfl

theorem sampleWorld_wired : Wired sampleNet 3 sampleWorld := ⟨rfl, rfl, rfl⟩

/-- A call without value. -/
def call (sender : Address) (c : Call) : ChainMove :=
  .enter (⟨sender, 0, 1, 1⟩, c)

/-- The guardian sets up both verifiers, user 8 deposits 100 of token 10. -/
def sampleSetup : List ChainMove :=
  [call 7 (.setVerifier 0 20), call 7 (.setVerifier 1 21), call 8 (.deposit 3 10 100)]

end Zstrategy.Contracts
