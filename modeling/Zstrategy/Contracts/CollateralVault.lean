/-
`CollateralVault.sol`: user collateral, free or locked under a
commitment. Every function takes the vault instance it runs on (`self`)
and the address that calls it (`sender`, or the whole `Msg` where the
function is called by users).

A standard token's transfer is carried out in place, since it calls
nobody; any other token is outside code, and control leaves with the
request. `safeTransfer` turns a `false` result into a revert, so both
ways a hostile token can refuse are the outside failing the call.
-/
import Zstrategy.Contracts.State

namespace Zstrategy.Contracts

open Lib Code

variable (net : Net)

-- ============================================================ token moves

/-- `safeTransfer` / `safeTransferFrom` of a standard token: the balances
move, or the call reverts. -/
def standardMove (token src dst : Address) (amount : U256) : Contract Unit := do
  let w ← read
  require (w.ext.refuses token src dst amount.val = false) "ERC20: refused"
  require (amount.val ≤ w.balances token src) "ERC20: insufficient balance"
  modify (World.moveToken token src dst amount.val)

/-- `IERC20(token).safeTransferFrom(src, dst, amount)`. -/
def safeTransferFrom (token src dst : Address) (amount : U256) : Contract Unit :=
  if net.standard token then standardMove token src dst amount
  else do let _ ← ask (.transferFrom token src dst amount)

/-- `IERC20(token).safeTransfer(dst, amount)` by the contract at `self`. -/
def safeTransfer (self token dst : Address) (amount : U256) : Contract Unit :=
  if net.standard token then standardMove token self dst amount
  else do let _ ← ask (.transfer token dst amount)

/-- `IERC20(token).forceApprove(spender, type(uint256).max)`. -/
def forceApprove (token spender : Address) : Contract Unit :=
  if net.standard token then pure ()
  else do let _ ← ask (.approve token spender)

namespace CollateralVault

-- ================================================================ modifiers

/-- The ReentrancyGuard around `body`. -/
def nonReentrant (self : Address) (body : Contract Unit) : Contract Unit := do
  let w ← read
  require ((w.vaults self).entered = false) "ReentrancyGuardReentrantCall()"
  modify (World.onVault self fun v => { v with entered := true })
  body
  modify (World.onVault self fun v => { v with entered := false })

def onlyRegistry (sender self : Address) : Contract Unit := do
  let w ← read
  require (sender = (w.vaults self).registry) "Vault: caller not registry"

def onlyOwner (sender self : Address) : Contract Unit := do
  let w ← read
  require (sender = (w.vaults self).owner) "OwnableUnauthorizedAccount(address)"

-- ============================================================ storage access

/-- `freeBalance[user][token] -= amount`. -/
def subFree (self user token : Address) (amount : U256) : Contract Unit := do
  let w ← read
  let x ← ofExcept (checkedSub ((w.vaults self).freeBalance user token) amount.val)
  modify (World.onVault self fun v =>
    { v with freeBalance := update2 v.freeBalance user token x })

/-- `freeBalance[user][token] += amount`. -/
def addFree (self user token : Address) (amount : U256) : Contract Unit := do
  let w ← read
  let x ← ofExcept (checkedAdd ((w.vaults self).freeBalance user token) amount.val)
  modify (World.onVault self fun v =>
    { v with freeBalance := update2 v.freeBalance user token x })

/-- `lockedBalance[commitmentHash][token] -= amount`. -/
def subLocked (self : Address) (commitmentHash : Bytes32) (token : Address)
    (amount : U256) : Contract Unit := do
  let w ← read
  let x ← ofExcept
    (checkedSub ((w.vaults self).lockedBalance commitmentHash token) amount.val)
  modify (World.onVault self fun v =>
    { v with lockedBalance := update2 v.lockedBalance commitmentHash token x })

/-- `lockedBalance[commitmentHash][token] += amount`. -/
def addLocked (self : Address) (commitmentHash : Bytes32) (token : Address)
    (amount : U256) : Contract Unit := do
  let w ← read
  let x ← ofExcept
    (checkedAdd ((w.vaults self).lockedBalance commitmentHash token) amount.val)
  modify (World.onVault self fun v =>
    { v with lockedBalance := update2 v.lockedBalance commitmentHash token x })

def emit (self : Address) (e : VaultEvent) : Contract Unit :=
  modify (World.emit (.vault self e))

-- ==================================================================== users

def deposit (m : Msg) (self token : Address) (amount : U256) : Contract Unit :=
  nonReentrant self do
    require (0 < amount.val) "Vault: zero amount"
    safeTransferFrom net token m.sender self amount
    addFree self m.sender token amount
    emit self (.Deposited m.sender token amount)

def withdraw (m : Msg) (self token : Address) (amount : U256) : Contract Unit :=
  nonReentrant self do
    require (0 < amount.val) "Vault: zero amount"
    let w ← read
    require (amount.val ≤ (w.vaults self).freeBalance m.sender token)
      "Vault: insufficient free balance"
    subFree self m.sender token amount
    safeTransfer net self token m.sender amount
    emit self (.Withdrawn m.sender token amount)

-- ============================================================ registry only

def lockCollateral (sender self : Address) (commitmentHash : Bytes32)
    (user token : Address) (amount : U256) : Contract Unit := do
  onlyRegistry sender self
  let w ← read
  require (amount.val ≤ (w.vaults self).freeBalance user token)
    "Vault: insufficient free balance"
  subFree self user token amount
  addLocked self commitmentHash token amount
  emit self (.CollateralLocked commitmentHash token amount)

def releaseForExecution (sender self : Address) (commitmentHash : Bytes32)
    (token : Address) (amount : U256) (dst : Address) : Contract Unit := do
  onlyRegistry sender self
  let w ← read
  require (amount.val ≤ (w.vaults self).lockedBalance commitmentHash token)
    "Vault: insufficient locked balance"
  subLocked self commitmentHash token amount
  safeTransfer net self token dst amount
  emit self (.CollateralReleased commitmentHash token amount dst)

def returnCollateral (sender self : Address) (commitmentHash : Bytes32)
    (user token : Address) (amount : U256) : Contract Unit := do
  onlyRegistry sender self
  let w ← read
  require (amount.val ≤ (w.vaults self).lockedBalance commitmentHash token)
    "Vault: insufficient locked balance"
  subLocked self commitmentHash token amount
  addFree self user token amount
  emit self (.CollateralReturned commitmentHash user token amount)

-- ===================================================================== owner

def setRegistry (m : Msg) (self registry : Address) : Contract Unit := do
  onlyOwner m.sender self
  require (registry ≠ 0) "Vault: zero registry"
  let w ← read
  emit self (.RegistryChanged (w.vaults self).registry registry)
  modify (World.onVault self fun v => { v with registry := registry })

/-- OpenZeppelin `Ownable`. -/
def transferOwnership (m : Msg) (self newOwner : Address) : Contract Unit := do
  onlyOwner m.sender self
  require (newOwner ≠ 0) "OwnableInvalidOwner(address)"
  modify (World.onVault self fun v => { v with owner := newOwner })

/-- OpenZeppelin `Ownable`. -/
def renounceOwnership (m : Msg) (self : Address) : Contract Unit := do
  onlyOwner m.sender self
  modify (World.onVault self fun v => { v with owner := 0 })

end CollateralVault

end Zstrategy.Contracts
