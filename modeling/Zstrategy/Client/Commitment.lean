/-
`frontend/src/lib/commitment.ts` and `dcaCommitment.ts`: how the client
encodes a strategy, hashes it and derives its secrets.

A `0x…` string of 32 bytes is the number it denotes, an address likewise.
viem is outside the repository: its `encodePacked` and `keccak256` are
parameters, and `Viem.FollowsAbi` is what the first one is documented to
do, the packed mode of the contract ABI.
-/
import Zstrategy.Circuits.Dca
import Zstrategy.Circuits.OrderFill
import Zstrategy.Contracts.State

namespace Zstrategy.Client

open Lib Contracts

open Circuits (Hash)

/-- A value handed to `encodePacked`, with its Solidity type. -/
inductive Packed where
  | address (a : Address)
  | uint256 (x : U256)
  | uint64 (x : UInt64)
  | uint8 (x : UInt8)
  | bytes32 (x : Bytes32)

/-- The width of a value in bytes, and the number it is. -/
def Packed.abi : Packed → ℕ × ℕ
  | .address a => (20, a.val)
  | .uint256 x => (32, x.val)
  | .uint64 x => (8, x.toNat)
  | .uint8 x => (1, x.toNat)
  | .bytes32 x => (32, x.val)

theorem Packed.fits (v : Packed) : v.abi.2 < 256 ^ v.abi.1 := by
  cases v with
  | address a => exact a.isLt
  | uint256 x => exact x.isLt
  | uint64 x => exact x.toNat_lt
  | uint8 x => exact x.toNat_lt
  | bytes32 x => exact x.isLt

structure Viem where
  keccak256 : Hash
  encodePacked : List Packed → List UInt8

/-- Values in place, each in its own width, without padding. -/
def Viem.FollowsAbi (viem : Viem) : Prop :=
  ∀ vs, viem.encodePacked vs = pack (vs.map Packed.abi)

/-- The message of viem's error for a bigint that an unsigned type of this
width does not hold. -/
def integerOutOfRange (bits : ℕ) (value : ℤ) : String :=
  "Number \"" ++ toString value ++ "n\" is not in safe " ++ toString bits
    ++ "-bit unsigned integer range (0n to " ++ toString (2 ^ bits - 1)
    ++ "n)\n\nVersion: viem@2.48.7"

/-- The digest as a `0x…` string. -/
def Viem.digest (viem : Viem) (bytes : List UInt8) : Bytes32 :=
  Fin.ofNat (2 ^ 256) (ofBE (viem.keccak256 bytes).toList)

def BN254_FIELD_MODULUS : ℕ :=
  21888242871839275222246405745257275088548364400416034343698204186575808495617

def reduceToField (value : Bytes32) : Bytes32 :=
  Fin.ofNat (2 ^ 256) (value.val % BN254_FIELD_MODULUS)

-- ================================================================ ORDER_FILL

inductive StrategyDirection where
  | BUY | SELL
  deriving DecidableEq

def StrategyDirection.toUInt8 : StrategyDirection → UInt8
  | .BUY => 0
  | .SELL => 1

structure PreimageFields where
  tokenIn : Address
  tokenOut : Address
  size : U256
  minOut : U256
  expiry : UInt64
  price : UInt64
  direction : StrategyDirection
  nonce : Bytes32
  userSecret : Bytes32
  deriving DecidableEq

/-- The arguments `commitmentHash` packs. -/
def PreimageFields.packed (p : PreimageFields) : List Packed :=
  [.address p.tokenIn, .address p.tokenOut, .uint256 p.size, .uint256 p.minOut,
    .uint64 p.expiry, .uint64 p.price, .uint8 p.direction.toUInt8, .bytes32 p.nonce,
    .bytes32 p.userSecret]

def commitmentHash (viem : Viem) (p : PreimageFields) : Bytes32 :=
  reduceToField (viem.digest (viem.encodePacked p.packed))

/-- The arguments `nullifierHash` packs. -/
def nullifierPacked (userSecret nonce : Bytes32) : List Packed :=
  [.bytes32 userSecret, .bytes32 nonce]

def nullifierHash (viem : Viem) (userSecret nonce : Bytes32) : Bytes32 :=
  reduceToField (viem.digest (viem.encodePacked (nullifierPacked userSecret nonce)))

def deriveStrategyId (viem : Viem) (owner : Address) (nonce : Bytes32) : Bytes32 :=
  viem.digest (viem.encodePacked [.address owner, .bytes32 nonce])

def deriveUserSecret (viem : Viem) (signature : List UInt8) : Bytes32 :=
  reduceToField (viem.digest signature)

/-- `0x` and 64 hex digits. -/
def hex (x : Bytes32) : String :=
  let digits := Nat.toDigits 16 x.val
  "0x" ++ String.ofList (List.replicate (64 - digits.length) '0' ++ digits)

def strategyIdSigningMessage (strategyId : Bytes32) : String :=
  "zstrategy: derive user_secret for strategyId=" ++ hex strategyId

-- ======================================================================= DCA

structure DcaPreimageFields where
  tokenIn : Address
  tokenOut : Address
  size : U256
  minOut : U256
  scheduledLo : UInt64
  scheduledHi : UInt64
  expiry : UInt64
  nonce : Bytes32
  userSecret : Bytes32

/-- The arguments `dcaCommitmentHash` packs. -/
def DcaPreimageFields.packed (p : DcaPreimageFields) : List Packed :=
  [.address p.tokenIn, .address p.tokenOut, .uint256 p.size, .uint256 p.minOut,
    .uint64 p.scheduledLo, .uint64 p.scheduledHi, .uint64 p.expiry, .bytes32 p.nonce,
    .bytes32 p.userSecret]

def dcaCommitmentHash (viem : Viem) (p : DcaPreimageFields) : Bytes32 :=
  reduceToField (viem.digest (viem.encodePacked p.packed))

def dcaNullifierHash (viem : Viem) (userSecret nonce : Bytes32) : Bytes32 :=
  reduceToField (viem.digest (viem.encodePacked (nullifierPacked userSecret nonce)))

end Zstrategy.Client
