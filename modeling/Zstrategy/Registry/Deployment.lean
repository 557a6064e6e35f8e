/-
`scripts/deploy.ts`, from the point where the contracts stand: point both
vaults at the registry, set the two verifiers, set the price feeds. Each
step reads the chain, and sends a transaction only if the value is not
there yet; between any two of its actions anybody else may send
transactions of any kind, and run any code inside them.

The script relies on being in charge: its account is the guardian and owns
the vaults. `charter_without` says that nobody else moves what it is in
charge of, and each step writes one slot of its own; so whatever a step
leaves is still there at the end.
-/
import Zstrategy.Registry.Governance
import Zstrategy.Gas.Steps

namespace Zstrategy.Contracts

open Lib Code

open Function (update)

variable {net : Net} {w w' : World} {d v : Address}

-- ==================================================================== the script

/-- A storage slot the script sets. -/
inductive SetupSlot where
  | collateralVault
  | gasVault
  | verifier (kind : UInt8)
  | priceFeed (token : Address)
  deriving DecidableEq

/-- `setVaultRegistry`, `setVerifierIfNeeded` or `setPriceFeedIfNeeded`. -/
structure SetupStep where
  slot : SetupSlot
  value : Address

/-- What a slot holds; `v` is the collateral vault. -/
def Charter.read (c : Charter) (v : Address) : SetupSlot → Address
  | .collateralVault => (c.vaults v).2
  | .gasVault => c.gasVault.2
  | .verifier kind => c.settings.verifiers kind
  | .priceFeed token => c.settings.priceFeeds token

/-- The transaction of a step. -/
def SetupStep.call (v : Address) (s : SetupStep) : Call :=
  match s.slot with
  | .collateralVault => .setVaultRegistry v s.value
  | .gasVault => .setGasVaultRegistry s.value
  | .verifier kind => .setVerifier kind s.value
  | .priceFeed token => .setPriceFeed token s.value

/-- The addresses the transaction of a step checks. -/
def SetupStep.Valid (s : SetupStep) : Prop :=
  match s.slot with
  | .priceFeed token => token ≠ 0
  | _ => s.value ≠ 0

/-- What `main` is given. -/
structure DeployConfig where
  deployer : Address
  collateralVault : Address
  orderFillVerifier : Address
  dcaVerifier : Address
  /-- token, feed -/
  priceFeeds : List (Address × Address)

/-- The steps of `main`, in order. -/
def DeployConfig.steps (net : Net) (cfg : DeployConfig) : List SetupStep :=
  [⟨.collateralVault, net.registry⟩, ⟨.gasVault, net.registry⟩,
    ⟨.verifier 0, cfg.orderFillVerifier⟩, ⟨.verifier 1, cfg.dcaVerifier⟩]
  ++ cfg.priceFeeds.map fun x => ⟨.priceFeed x.1, x.2⟩

/-- Transactions of others. -/
def Others (net : Net) (d : Address) (w w' : World) : Prop :=
  (chain net).Run (fun _ m => ∀ i, m = .enter i → i.1.sender ≠ d) ⟨w, []⟩ ⟨w', []⟩

theorem Others.trans {w₁ : World} (h : Others net d w w₁) (h' : Others net d w₁ w') :
    Others net d w w' := System.Run.trans h h'

/-- A run of the script by `d`. Others act before and after each of its
actions, also between what a step reads and the transaction it then sends.
A transaction that reverts ends it. -/
inductive Script (net : Net) (d v : Address) : List SetupStep → World → World → Prop
  | finish {w w' : World} : Others net d w w' → Script net d v [] w w'
  | skip {w w₁ w' : World} {s : SetupStep} {steps : List SetupStep} :
      Others net d w w₁ → w₁.charter.read v s.slot = s.value →
      Script net d v steps w₁ w' → Script net d v (s :: steps) w w'
  | send {w w₁ w₂ w₃ w' : World} {s : SetupStep} {steps : List SetupStep} {m : Msg} :
      Others net d w w₁ → w₁.charter.read v s.slot ≠ s.value →
      Others net d w₁ w₂ → m.sender = d → entry net (m, s.call v) w₂ = .done () w₃ →
      Script net d v steps w₃ w' → Script net d v (s :: steps) w w'

-- ===================================================================== one step

/-- The account is the guardian and owns both vaults. -/
structure InCharge (d v : Address) (c : Charter) : Prop where
  guardian : c.guardian = d
  vault : (c.vaults v).1 = d
  gasVault : c.gasVault.1 = d

/-- The vaults the registry works with, which the constructor set. -/
def Charter.wire (c : Charter) : Address × Address := (c.settings.vault, c.settings.gasVault)

/-- What others leave. -/
theorem Others.keeps (h : Others net d w w') (hd : InCharge d v w.charter) :
    InCharge d v w'.charter ∧ w'.charter.wire = w.charter.wire
      ∧ ∀ slot, w'.charter.read v slot = w.charter.read v slot := by
  obtain ⟨hregistry, hvaults, hgas⟩ := charter_without h
  obtain ⟨hsettings, hguardian⟩ := hregistry hd.guardian
  have hvault := hvaults v hd.vault
  have hgasVault := hgas hd.gasVault
  refine ⟨⟨hguardian, ?_, ?_⟩, ?_, fun slot => ?_⟩
  · rw [hvault]
    exact hd.vault
  · rw [hgasVault]
    exact hd.gasVault
  · unfold Charter.wire
    rw [hsettings]
  · cases slot with
    | collateralVault => exact congrArg Prod.snd hvault
    | gasVault => exact congrArg Prod.snd hgasVault
    | verifier kind => exact congrFun (congrArg Settings.verifiers hsettings) kind
    | priceFeed token => exact congrFun (congrArg Settings.priceFeeds hsettings) token

/-- A step that went through: its slot is set, the others are untouched. -/
structure Sets (d v : Address) (s : SetupStep) (c c' : Charter) : Prop where
  inCharge : InCharge d v c → InCharge d v c'
  wire : c'.wire = c.wire
  done : c'.read v s.slot = s.value
  others : ∀ slot, slot ≠ s.slot → c'.read v slot = c.read v slot

theorem dispatch_sets {s : SetupStep} {m : Msg} :
    (dispatch net m (s.call v)).wp Rely.any (fun _ w' => Sets d v s w.charter w'.charter) w := by
  obtain ⟨slot, value⟩ := s
  cases slot with
  | collateralVault =>
      simp only [SetupStep.call, dispatch, nonpayable, CollateralVault.setRegistry, wp_bind,
        CollateralVault.wp_onlyOwner, wp_read, CollateralVault.wp_emit, wp_modify, wp_require]
      refine ⟨fun _ => ⟨fun _ => ⟨fun _ => ?_, fun _ => trivial⟩, fun _ => trivial⟩,
        fun _ => trivial⟩
      refine ⟨fun h => ⟨h.guardian, ?_, h.gasVault⟩, rfl, ?_, fun slot hslot => ?_⟩
      · rw [← h.vault]
        simp [World.charter, World.onVault, World.emit]
      · simp [Charter.read, World.charter, World.onVault]
      · cases slot with
        | collateralVault => exact absurd rfl hslot
        | _ => rfl
  | gasVault =>
      simp only [SetupStep.call, dispatch, nonpayable, GasVault.setRegistry, wp_bind,
        GasVault.wp_onlyOwner, wp_read, GasVault.wp_emit, wp_modify, wp_require]
      refine ⟨fun _ => ⟨fun _ => ⟨fun _ => ?_, fun _ => trivial⟩, fun _ => trivial⟩,
        fun _ => trivial⟩
      refine ⟨fun h => ⟨h.guardian, h.vault, h.gasVault⟩, rfl, rfl, fun slot hslot => ?_⟩
      cases slot with
      | gasVault => exact absurd rfl hslot
      | _ => rfl
  | verifier kind =>
      refine dispatch_setter (fun _ => trivial) rfl fun _ => ?_
      refine ⟨fun h => ⟨h.guardian, h.vault, h.gasVault⟩, rfl, ?_, fun slot hslot => ?_⟩
      · exact Function.update_self ..
      · cases slot with
        | verifier k =>
            have hk : k ≠ kind := fun heq => hslot (congrArg SetupSlot.verifier heq)
            exact Function.update_of_ne hk ..
        | _ => rfl
  | priceFeed token =>
      refine dispatch_setter (fun _ => trivial) rfl fun _ => ?_
      refine ⟨fun h => ⟨h.guardian, h.vault, h.gasVault⟩, rfl, ?_, fun slot hslot => ?_⟩
      · exact Function.update_self ..
      · cases slot with
        | priceFeed t =>
            have ht : t ≠ token := fun heq => hslot (congrArg SetupSlot.priceFeed heq)
            exact Function.update_of_ne ht ..
        | _ => rfl

/-- A transaction of the script that returned. -/
theorem entry_sets {s : SetupStep} {m : Msg} (h : entry net (m, s.call v) w = .done () w') :
    Sets d v s w.charter w'.charter := by
  have hwp : (entry net (m, s.call v)).wp Rely.any
      (fun _ w' => Sets d v s w.charter w'.charter) w := by
    rw [entry, wp_bind]
    exact wp_mono dispatch_sets fun _ _ => id
  unfold Code.wp at hwp
  rw [h] at hwp
  exact hwp

-- ================================================================== the whole run

/-- A slot that no step is about stays. -/
theorem Script.untouched {steps : List SetupStep} (h : Script net d v steps w w')
    (hd : InCharge d v w.charter) {slot : SetupSlot} (hslot : ∀ s ∈ steps, slot ≠ s.slot) :
    w'.charter.read v slot = w.charter.read v slot := by
  induction h with
  | finish hothers => exact (hothers.keeps hd).2.2 slot
  | skip hothers _ _ ih =>
      obtain ⟨hd₁, -, hkeep⟩ := hothers.keeps hd
      have hrest := ih hd₁ fun s hs => hslot s (List.mem_cons_of_mem _ hs)
      exact hrest.trans (hkeep slot)
  | send hread _ hothers _ hentry _ ih =>
      obtain ⟨hd₁, -, hkeep⟩ := (hread.trans hothers).keeps hd
      have hsets := entry_sets (d := d) hentry
      have hrest := ih (hsets.inCharge hd₁) fun s hs => hslot s (List.mem_cons_of_mem _ hs)
      have hstep := hsets.others slot (hslot _ List.mem_cons_self)
      exact (hrest.trans hstep).trans (hkeep slot)

theorem Script.inCharge {steps : List SetupStep} (h : Script net d v steps w w')
    (hd : InCharge d v w.charter) : InCharge d v w'.charter ∧ w'.charter.wire = w.charter.wire := by
  induction h with
  | finish hothers =>
      obtain ⟨hd₁, hwire, -⟩ := hothers.keeps hd
      exact ⟨hd₁, hwire⟩
  | skip hothers _ _ ih =>
      obtain ⟨hd₁, hwire, -⟩ := hothers.keeps hd
      obtain ⟨hend, hrest⟩ := ih hd₁
      exact ⟨hend, hrest.trans hwire⟩
  | send hread _ hothers _ hentry _ ih =>
      obtain ⟨hd₁, hwire, -⟩ := (hread.trans hothers).keeps hd
      have hsets := entry_sets (d := d) hentry
      obtain ⟨hend, hrest⟩ := ih (hsets.inCharge hd₁)
      exact ⟨hend, (hrest.trans hsets.wire).trans hwire⟩

/-- Every step's value is there at the end. -/
theorem Script.settles {steps : List SetupStep} (h : Script net d v steps w w')
    (hd : InCharge d v w.charter) (hnodup : (steps.map SetupStep.slot).Nodup) :
    ∀ s ∈ steps, w'.charter.read v s.slot = s.value := by
  induction h with
  | finish => exact fun s hs => nomatch hs
  | skip hothers hthere hrest ih =>
      obtain ⟨hd₁, -⟩ := hothers.keeps hd
      obtain ⟨hfresh, hnodup⟩ := List.nodup_cons.1 hnodup
      refine List.forall_mem_cons.2 ⟨?_, ih hd₁ hnodup⟩
      refine (hrest.untouched hd₁ fun s hs heq => hfresh ?_).trans hthere
      exact List.mem_map.2 ⟨s, hs, heq.symm⟩
  | send hread _ hothers _ hentry hrest ih =>
      have hsets := entry_sets (d := d) hentry
      have hd₂ := hsets.inCharge ((hread.trans hothers).keeps hd).1
      obtain ⟨hfresh, hnodup⟩ := List.nodup_cons.1 hnodup
      refine List.forall_mem_cons.2 ⟨?_, ih hd₂ hnodup⟩
      refine (hrest.untouched hd₂ fun s hs heq => hfresh ?_).trans hsets.done
      exact List.mem_map.2 ⟨s, hs, heq.symm⟩

theorem steps_nodup (net : Net) (cfg : DeployConfig)
    (hfeeds : (cfg.priceFeeds.map Prod.fst).Nodup) :
    ((cfg.steps net).map SetupStep.slot).Nodup := by
  have hslots : (cfg.priceFeeds.map fun x => SetupSlot.priceFeed x.1).Nodup := by
    have hmap := hfeeds.map (f := SetupSlot.priceFeed) fun a b h => SetupSlot.priceFeed.inj h
    rwa [List.map_map] at hmap
  have hall : (cfg.steps net).map SetupStep.slot
      = [.collateralVault, .gasVault, .verifier 0, .verifier 1]
        ++ cfg.priceFeeds.map fun x => SetupSlot.priceFeed x.1 := by
    simp [DeployConfig.steps]
  rw [hall, List.nodup_append]
  refine ⟨by decide, hslots, fun a ha b hb => ?_⟩
  obtain ⟨x, -, rfl⟩ := List.mem_map.1 hb
  rintro rfl
  simp at ha

/-- The deployment as the script leaves it. -/
structure Configured (net : Net) (cfg : DeployConfig) (w : World) : Prop where
  wired : Wired net cfg.collateralVault w
  gasWired : GasWired net w
  orderFill : w.registry.verifiers 0 = cfg.orderFillVerifier
  dca : w.registry.verifiers 1 = cfg.dcaVerifier
  feeds : ∀ x ∈ cfg.priceFeeds, w.registry.priceFeeds x.1 = x.2
  guardian : w.registry.guardian = cfg.deployer

-- =================================================================== completion

/-- In charge, a step's transaction returns. -/
theorem entry_returns {s : SetupStep} (hd : InCharge d v w.charter) (hs : s.Valid) :
    ∃ w', entry net (⟨d, 0, 0, 0⟩, s.call v) w = .done () w' := by
  have hwp : (entry net (⟨d, 0, 0, 0⟩, s.call v)).wp Rely.direct (fun _ _ => True) w := by
    obtain ⟨slot, value⟩ := s
    have hguardian : d = w.registry.guardian := hd.guardian.symm
    have hvault : d = (w.vaults v).owner := hd.vault.symm
    have hgasVault : d = w.gasVault.owner := hd.gasVault.symm
    rw [entry, wp_bind]
    cases slot with
    | collateralVault =>
        have hvalue : value ≠ 0 := hs
        simp only [SetupStep.call, dispatch, nonpayable, CollateralVault.setRegistry, wp_bind,
          CollateralVault.wp_onlyOwner, wp_read, CollateralVault.wp_emit, wp_modify, wp_require,
          receipt]
        exact ⟨fun _ => ⟨fun _ => ⟨fun _ => trivial, fun h => h hvalue⟩, fun h => h hvault⟩,
          fun h => h rfl⟩
    | gasVault =>
        have hvalue : value ≠ 0 := hs
        simp only [SetupStep.call, dispatch, nonpayable, GasVault.setRegistry, wp_bind,
          GasVault.wp_onlyOwner, wp_read, GasVault.wp_emit, wp_modify, wp_require, receipt]
        exact ⟨fun _ => ⟨fun _ => ⟨fun _ => trivial, fun h => h hvalue⟩, fun h => h hgasVault⟩,
          fun h => h rfl⟩
    | verifier kind =>
        have hvalue : value ≠ 0 := hs
        simp only [SetupStep.call, dispatch, nonpayable, CommitmentRegistry.setVerifier, wp_bind,
          CommitmentRegistry.wp_onlyGuardian, CommitmentRegistry.wp_emit, wp_modify, wp_require,
          receipt]
        exact ⟨fun _ => ⟨fun _ => ⟨fun _ => trivial, fun h => h hvalue⟩, fun h => h hguardian⟩,
          fun h => h rfl⟩
    | priceFeed token =>
        have htoken : token ≠ 0 := hs
        simp only [SetupStep.call, dispatch, nonpayable, CommitmentRegistry.setPriceFeed, wp_bind,
          CommitmentRegistry.wp_onlyGuardian, CommitmentRegistry.wp_emit, wp_modify, wp_require,
          receipt]
        exact ⟨fun _ => ⟨fun _ => ⟨fun _ => trivial, fun h => h htoken⟩, fun h => h hguardian⟩,
          fun h => h rfl⟩
  obtain ⟨u, w', hdone, -⟩ := Outcome.sat_direct.1 hwp
  exact ⟨w', hdone⟩

/-- From wherever the script stands it can be run to its end. -/
theorem script_completes {steps : List SetupStep} (hd : InCharge d v w.charter)
    (hvalid : ∀ s ∈ steps, s.Valid) : ∃ w', Script net d v steps w w' := by
  induction steps generalizing w with
  | nil => exact ⟨w, .finish (.refl _)⟩
  | cons s steps ih =>
      have hrest : ∀ s ∈ steps, s.Valid := fun x hx => hvalid x (List.mem_cons_of_mem s hx)
      by_cases hthere : w.charter.read v s.slot = s.value
      · obtain ⟨w', h⟩ := ih hd hrest
        exact ⟨w', .skip (.refl _) hthere h⟩
      · have hvalidStep : s.Valid := hvalid s List.mem_cons_self
        obtain ⟨w₂, hentry⟩ : ∃ w₂, entry net (⟨d, 0, 0, 0⟩, s.call v) w = .done () w₂ :=
          entry_returns hd hvalidStep
        have hsets : Sets d v s w.charter w₂.charter := entry_sets hentry
        obtain ⟨w', h⟩ := ih (hsets.inCharge hd) hrest
        exact ⟨w', .send (.refl _) hthere (.refl _) rfl hentry h⟩

-- =================================================================== the result

/-- The addresses `main` requires, and what it deployed: the registry over
the two vaults, with itself as guardian and owner. -/
structure Started (net : Net) (cfg : DeployConfig) (w : World) : Prop where
  registry : ∃ dexAdapter, CommitmentRegistry.constructor net.gasVault cfg.collateralVault
    dexAdapter cfg.deployer = .ok w.registry
  isVault : net.isVault cfg.collateralVault = true
  vaultOwner : (w.vaults cfg.collateralVault).owner = cfg.deployer
  gasVaultOwner : w.gasVault.owner = cfg.deployer
  address : net.registry ≠ 0
  verifiers : cfg.orderFillVerifier ≠ 0 ∧ cfg.dcaVerifier ≠ 0
  tokens : ∀ x ∈ cfg.priceFeeds, x.1 ≠ 0
  distinct : (cfg.priceFeeds.map Prod.fst).Nodup

theorem Started.inCharge {cfg : DeployConfig} (h : Started net cfg w) :
    InCharge cfg.deployer cfg.collateralVault w.charter
      ∧ w.charter.wire = (cfg.collateralVault, net.gasVault) := by
  obtain ⟨dexAdapter, hr⟩ := h.registry
  unfold CommitmentRegistry.constructor at hr
  split_ifs at hr
  injection hr with hr
  refine ⟨⟨?_, h.vaultOwner, h.gasVaultOwner⟩, ?_⟩
  · show w.registry.guardian = cfg.deployer
    rw [← hr]
  · show (w.registry.vault, w.registry.gasVault) = _
    rw [← hr]

/-- Whatever others do meanwhile, the script ends in the configuration it
was given, with both vaults wired to the registry; and it can end. -/
theorem deploy_configures (cfg : DeployConfig) (h : Started net cfg w) :
    (∃ w', Script net cfg.deployer cfg.collateralVault (cfg.steps net) w w')
      ∧ ∀ w', Script net cfg.deployer cfg.collateralVault (cfg.steps net) w w' →
        Configured net cfg w' := by
  obtain ⟨hd, hwire⟩ := h.inCharge
  constructor
  · refine script_completes hd fun s hs => ?_
    rcases List.mem_append.1 hs with hfixed | hfeed
    · simp only [List.mem_cons, List.not_mem_nil, or_false] at hfixed
      rcases hfixed with rfl | rfl | rfl | rfl
      · exact h.address
      · exact h.address
      · exact h.verifiers.1
      · exact h.verifiers.2
    · obtain ⟨x, hx, rfl⟩ := List.mem_map.1 hfeed
      exact h.tokens x hx
  · intro w' hscript
    have hset := hscript.settles hd (steps_nodup net cfg h.distinct)
    obtain ⟨hend, hkept⟩ := hscript.inCharge hd
    have hfixed : ∀ s ∈ [⟨.collateralVault, net.registry⟩, ⟨.gasVault, net.registry⟩,
        ⟨.verifier 0, cfg.orderFillVerifier⟩, (⟨.verifier 1, cfg.dcaVerifier⟩ : SetupStep)],
        w'.charter.read cfg.collateralVault s.slot = s.value :=
      fun s hs => hset s (List.mem_append_left _ hs)
    simp only [List.forall_mem_cons] at hfixed
    obtain ⟨hvault, hgas, horder, hdca, -⟩ := hfixed
    have hpointers : w'.charter.wire = (cfg.collateralVault, net.gasVault) := hkept.trans hwire
    refine ⟨⟨h.isVault, congrArg Prod.fst hpointers, hvault⟩, ?_, horder, hdca, fun x hx => ?_,
      hend.guardian⟩
    · exact Prod.ext (congrArg Prod.snd hpointers) hgas
    · exact hset ⟨.priceFeed x.1, x.2⟩ (List.mem_append_right _ (List.mem_map.2 ⟨x, hx, rfl⟩))

-- ================================================================== an example

/-- Account 7 deploys, with feeds for the two tokens. -/
def sampleConfig : DeployConfig := ⟨7, 3, 20, 21, [(10, 30), (11, 31)]⟩

theorem deploy_configures_sample :
    ∃ w', Script sampleNet 7 3 (sampleConfig.steps sampleNet) sampleWorld w'
      ∧ Configured sampleNet sampleConfig w' := by
  have htokens : ∀ x ∈ sampleConfig.priceFeeds, x.1 ≠ 0 := by
    intro x hx
    rcases List.mem_pair.1 hx with rfl | rfl
    · show (10 : Address) ≠ 0
      decide
    · show (11 : Address) ≠ 0
      decide
  have hstarted : Started sampleNet sampleConfig sampleWorld :=
    ⟨⟨4, rfl⟩, rfl, rfl, rfl, by decide, by decide, htokens, by decide⟩
  obtain ⟨hends, hall⟩ := deploy_configures sampleConfig hstarted
  obtain ⟨w', hscript⟩ := hends
  exact ⟨w', hscript, hall w' hscript⟩

end Zstrategy.Contracts
