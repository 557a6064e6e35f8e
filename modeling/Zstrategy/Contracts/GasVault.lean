/-
`GasVault.sol`: prepaid native balances, debited when a keeper executes.
ETH leaves through a low-level call, so the receiver's code runs with the
balance already moved; a failing receiver makes the `require(ok, …)` that
follows revert, which is the outside failing the call.

`debit` is the only function that the registry calls, and the only one that
may take from an account whose owner is not the sender. Everything else is
the user's own, or the owner's.
-/
import Zstrategy.Contracts.State

namespace Zstrategy.Contracts

open Lib Code

variable (net : Net)

namespace GasVault

-- ================================================================ modifiers

/-- The ReentrancyGuard around `body`. -/
def nonReentrant (body : Contract Unit) : Contract Unit := do
  let w ← read
  require (w.gasVault.entered = false) "ReentrancyGuardReentrantCall()"
  modify (World.onGasVault fun g => { g with entered := true })
  body
  modify (World.onGasVault fun g => { g with entered := false })

def onlyRegistry (sender : Address) : Contract Unit := do
  let w ← read
  require (sender = w.gasVault.registry) "GasVault: not registry"

def onlyOwner (sender : Address) : Contract Unit := do
  let w ← read
  require (sender = w.gasVault.owner) "OwnableUnauthorizedAccount(address)"

-- ============================================================ storage access

/-- `balanceOf[user] += amount`. -/
def addBalance (user : Address) (amount : ℕ) : Contract Unit := do
  let w ← read
  let x ← ofExcept (checkedAdd (w.gasVault.balanceOf user) amount)
  modify (World.onGasVault fun g =>
    { g with balanceOf := Function.update g.balanceOf user x })

/-- `balanceOf[user] -= amount`. -/
def subBalance (user : Address) (amount : ℕ) : Contract Unit := do
  let w ← read
  let x ← ofExcept (checkedSub (w.gasVault.balanceOf user) amount)
  modify (World.onGasVault fun g =>
    { g with balanceOf := Function.update g.balanceOf user x })

def emit (e : GasVaultEvent) : Contract Unit :=
  modify (World.emit (.gasVault e))

/-- The value of a payable call, credited before the function runs. -/
def receiveValue (m : Msg) : Contract Unit := do
  let w ← read
  require (m.value.val ≤ w.eth m.sender) "insufficient funds"
  modify (World.moveEth m.sender net.gasVault m.value.val)

/-- The body that `deposit()` and `receive()` share. -/
def credit (sender : Address) (value : ℕ) : Contract Unit := do
  require (0 < value) "GasVault: zero deposit"
  addBalance sender value
  emit (.Deposited sender value)

/-- `dst.call{value: amount}("")`, required to succeed. Sent to the gas
vault itself it runs its own `receive`. -/
def sendValue (dst : Address) (amount : ℕ) (reason : String) :
    Contract Unit := do
  let w ← read
  require (amount ≤ w.eth net.gasVault) reason
  modify (World.moveEth net.gasVault dst amount)
  if dst = net.gasVault then credit net.gasVault amount
  else do let _ ← ask (.sendEth dst amount)

-- ==================================================================== users

def deposit (m : Msg) : Contract Unit := do
  receiveValue net m
  credit m.sender m.value.val

def withdraw (m : Msg) (amount : U256) : Contract Unit :=
  nonReentrant do
    require (0 < amount.val) "GasVault: zero amount"
    let w ← read
    require (amount.val ≤ w.gasVault.balanceOf m.sender) "GasVault: insufficient"
    subBalance m.sender amount.val
    sendValue net m.sender amount.val "GasVault: transfer failed"
    emit (.Withdrawn m.sender amount.val)

-- ============================================================ registry only

def debit (sender user keeper : Address) (amount : ℕ)
    (commitmentHash : Bytes32) : Contract Unit := do
  onlyRegistry sender
  nonReentrant do
    let w ← read
    require (amount ≤ w.gasVault.balanceOf user)
      "GasVault: insufficient gas balance"
    subBalance user amount
    sendValue net keeper amount "GasVault: keeper transfer failed"
    emit (.Debited user keeper amount commitmentHash)

-- ===================================================================== owner

def setRegistry (m : Msg) (registry : Address) : Contract Unit := do
  onlyOwner m.sender
  require (registry ≠ 0) "GasVault: zero registry"
  let w ← read
  emit (.RegistryChanged w.gasVault.registry registry)
  modify (World.onGasVault fun g => { g with registry := registry })

/-- OpenZeppelin `Ownable`. -/
def transferOwnership (m : Msg) (newOwner : Address) : Contract Unit := do
  onlyOwner m.sender
  require (newOwner ≠ 0) "OwnableInvalidOwner(address)"
  modify (World.onGasVault fun g => { g with owner := newOwner })

/-- OpenZeppelin `Ownable`. -/
def renounceOwnership (m : Msg) : Contract Unit := do
  onlyOwner m.sender
  modify (World.onGasVault fun g => { g with owner := 0 })

end GasVault

end Zstrategy.Contracts
