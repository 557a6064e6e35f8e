/-
The rounds of a schedule, from the page to the chain. `roundFields` is
what the page hashes for a round. A round that executes was vouched for by
the DCA verifier, so the fill reference lies in a private window whose
preimage has the round's hash; with no collision among the preimages in
use that window is the scheduled one. The registry adds that the reference
is at most five minutes old and the commitment alive.

A round is a commitment of kind DCA: `DcaOnly` says that its hash is
registered as nothing else.

Two facts of different kinds meet in the theorem. That the windows are
ordered and do not overlap is arithmetic of the schedule (Schedule.lean).
That a round executes in its window only is a statement about every run, by
the soundness of the verifier and the binding of the preimage. Together they
put the executions of the rounds in the order of the rounds.
-/
import Zstrategy.Client.Agreement
import Zstrategy.Client.Schedule
import Zstrategy.Custody.Settlement
import Zstrategy.Execution.Authorisation
import Zstrategy.Execution.Receipts

namespace Zstrategy.Client

open Lib Contracts

open Circuits (Hash P PublicInputs hashToField)

open Function (update)

variable {viem : Viem}

-- ==================================================================== the page

/-- What the rounds of a strategy share. -/
structure RoundOrder where
  tokenIn : Address
  tokenOut : Address
  size : U256
  userSecret : Bytes32

/-- `BigInt` of a time, as the `uint64` that viem encodes; it throws on
anything else. -/
def toUint64 (x : ℤ) : Option UInt64 :=
  if 0 ≤ x ∧ x < 2 ^ 64 then some (UInt64.ofNat x.toNat) else none

/-- The preimage fields of a round in `handleSubmit`. -/
def roundFields (o : RoundOrder) (r : Window) (nonce : Bytes32) : Option DcaPreimageFields := do
  let scheduledLo ← toUint64 r.scheduledLo
  let scheduledHi ← toUint64 r.scheduledHi
  let expiry ← toUint64 r.expiry
  pure { tokenIn := o.tokenIn, tokenOut := o.tokenOut, size := o.size, minOut := 0, scheduledLo,
         scheduledHi, expiry, nonce, userSecret := o.userSecret }

/-- The fields carry the window of the round. -/
def Window.Fits (r : Window) (f : DcaPreimageFields) : Prop := r.Opens f.witness f.expiry

theorem toUint64_eq {x : ℤ} {y : UInt64} (h : toUint64 x = some y) : (y.toNat : ℤ) = x := by
  unfold toUint64 at h
  split at h
  case isFalse => cases h
  case isTrue hx =>
    cases h
    rw [UInt64.toNat_ofNat_of_lt' (by change _ < 2 ^ 64; omega)]
    omega

theorem roundFields_fits {o : RoundOrder} {r : Window} {nonce : Bytes32}
    {f : DcaPreimageFields} (h : roundFields o r nonce = some f) : r.Fits f := by
  obtain ⟨lo, hlo, h⟩ := Option.bind_eq_some_iff.1 h
  obtain ⟨hi, hhi, h⟩ := Option.bind_eq_some_iff.1 h
  obtain ⟨expiry, hexp, h⟩ := Option.bind_eq_some_iff.1 h
  cases h
  exact ⟨toUint64_eq hlo, toUint64_eq hhi, toUint64_eq hexp⟩

-- ============================================================== what is assumed

/-- The DCA verifier accepts only what some run of the circuit's `main`
proves, and the preimage hashed there is one of those in use. -/
def DcaSound (keccak256 : Hash) (used : Set (List UInt8)) (w : World) : Prop :=
  ∀ proof inputs, w.registry.verifiers CommitmentKind.DCA.toUInt8 ≠ 0 →
    w.ext.verify (w.registry.verifiers CommitmentKind.DCA.toUInt8) proof inputs = true →
    ∃ p x, Circuits.Dca.main keccak256 p x = .ok () ∧ x.words = inputs.map Fin.val
      ∧ (Circuits.Dca.commitmentPreimage x.terms p).toList ∈ used

/-- The hashes are registered as DCA rounds only. -/
def DcaOnly (rounds : List Bytes32) : Call → Prop
  | .registerCommitment h _ _ _ _ _ kind => h ∈ rounds → kind = .DCA
  | .registerCommitmentBatch hs _ _ sizes minOuts expiries kind =>
      ∀ row ∈ CommitmentRegistry.batchRows hs sizes minOuts expiries,
        row.1 ∈ rounds → kind = .DCA
  | _ => True

/-- Moves that find the verifier sound and take the rounds for rounds. -/
def RoundMoves (keccak256 : Hash) (used : Set (List UInt8)) (rounds : List Bytes32) (w : World) :
    ChainMove → Prop
  | .enter (_, call) => DcaSound keccak256 used w ∧ DcaOnly rounds call
  | _ => True

-- ==================================================================== the kind

variable {net : Net} {keccak256 : Hash} {used : Set (List UInt8)} {rounds : List Bytes32}

/-- The acts of such moves open the rounds as rounds. -/
def OpensRounds (rounds : List Bytes32) (a : Act) : Prop :=
  ∀ h r, a = .register h r → h ∈ rounds → r.kind = .DCA

theorem roundMoves_allows : Allows (OpensRounds rounds) (RoundMoves keccak256 used rounds) := by
  intro w mv hP a ha h r hreg hmem
  subst hreg
  cases mv with
  | enter i =>
      obtain ⟨m, call⟩ := i
      obtain ⟨-, hcall⟩ := hP
      cases call with
      | registerCommitment h' tIn tOut size minOut expiry kind =>
          cases ha
          exact hcall hmem
      | registerCommitmentBatch hs tIn tOut sizes minOuts expiries kind =>
          obtain ⟨row, hrow, ha⟩ := ha
          cases ha
          exact hcall row hrow hmem
      | sweepExpired hs =>
          obtain ⟨h', -, r', ha⟩ := ha
          cases ha
      | _ => cases ha
  | outside e =>
      cases e with
      | _ => cases ha
  | _ => cases ha

/-- What an act writes is opened by it, or was pending and keeps its kind. -/
theorem kind_of_writes {a : Act} {b : Book} {h : Bytes32} {r : CommitmentRecord}
    (hg : a.guard net b) (hw : a.writes = some (h, r)) :
    a = .register h r ∨ (b.record h).status = .PENDING ∧ r.kind = (b.record h).kind := by
  cases a with
  | register h' r' => cases hw; exact Or.inl rfl
  | execute h' n r' dst =>
      cases hw
      obtain ⟨⟨rfl, hpend⟩, -⟩ := hg
      exact Or.inr ⟨hpend, rfl⟩
  | cancel h' n r' =>
      cases hw
      obtain ⟨⟨rfl, hpend⟩, -⟩ := hg
      exact Or.inr ⟨hpend, rfl⟩
  | expire h' r' =>
      cases hw
      obtain ⟨⟨rfl, hpend⟩, -⟩ := hg
      exact Or.inr ⟨hpend, rfl⟩
  | _ => cases hw

/-- The rounds that exist are rounds. -/
def KnownRounds (rounds : List Bytes32) (b : Book) : Prop :=
  ∀ h ∈ rounds, (b.record h).status ≠ .NONE → (b.record h).kind = .DCA

theorem knownRounds_act {a : Act} {b : Book} (hb : KnownRounds rounds b)
    (hok : OpensRounds rounds a) (hg : a.guard net b) : KnownRounds rounds (a.effect net b) := by
  intro h hmem hne
  rw [Act.effect_record] at hne ⊢
  cases hw : a.writes with
  | none =>
      rw [hw] at hne
      exact hb h hmem hne
  | some x =>
      obtain ⟨h', r⟩ := x
      rw [hw] at hne
      by_cases hh : h = h'
      · subst hh
        simp only [Function.update_self]
        rcases kind_of_writes hg hw with hreg | ⟨hpend, hkind⟩
        · exact hok h r hreg hmem
        · rw [hkind]
          exact hb h hmem (by rw [hpend]; decide)
      · simp only [Function.update_of_ne hh] at hne ⊢
        exact hb h hmem hne

/-- In every configuration a round is a round. -/
theorem knownRounds_run {w : World} {c : ChainConfig} (hd : Deployed w)
    (hrun : (chain net).Run (RoundMoves keccak256 used rounds) ⟨w, []⟩ c) :
    KnownRounds rounds c.world.book := by
  obtain ⟨d, m, es, rs, hp, -⟩ := run_tracks roundMoves_allows hrun
  refine hp.inv (fun a b hb hok hg => knownRounds_act hb hok hg) ?_
  intro h _ hne
  have hnone : (w.registry.commitments h).status = .NONE := by
    rw [hd.commitments]
    rfl
  exact absurd hnone hne

-- ================================================================== one round

/-- What the client hashed is what the circuit hashes only if their windows
are the same. -/
theorem schedule_of_preimage (hviem : viem.FollowsAbi) {f : DcaPreimageFields}
    {p : Circuits.Dca.Private} {t : Circuits.Terms} (ht : t.AddressFields)
    (h : viem.encodePacked f.packed = (Circuits.Dca.commitmentPreimage t p).toList) :
    p.scheduledLo = f.scheduledLo ∧ p.scheduledHi = f.scheduledHi ∧ t.expiry = f.expiry := by
  rw [hviem, Circuits.Dca.toList_commitmentPreimage] at h
  have hw : (f.packed.map Packed.abi).map Prod.fst
      = (Circuits.Dca.row t p).map Prod.fst := rfl
  have hfits : Row.Fits (f.packed.map Packed.abi) := by
    intro q hq
    obtain ⟨v, hv, rfl⟩ := List.mem_map.1 hq
    exact v.fits
  have hrow := pack_inj hw hfits (Circuits.Dca.row_fits ht p) h
  simp only [DcaPreimageFields.packed, List.map_cons, List.map_nil, Packed.abi,
    Circuits.Dca.row, List.cons.injEq, Prod.mk.injEq, true_and, and_true] at hrow
  obtain ⟨-, -, -, -, hlo, hhi, hexp, -, -⟩ := hrow
  exact ⟨UInt64.toNat_inj.1 hlo.symm, UInt64.toNat_inj.1 hhi.symm, UInt64.toNat_inj.1 hexp.symm⟩

/-- A round executes inside its window, give or take the age the registry
allows, and not after its expiry. -/
theorem executes_in_window (hviem : viem.FollowsAbi)
    (hinj : Set.InjOn (hashToField viem.keccak256) used) {w : World}
    (hsound : DcaSound viem.keccak256 used w) {f : DcaPreimageFields}
    (hf : viem.encodePacked f.packed ∈ used) {m : Msg} {n : Bytes32} {proof : List UInt8}
    {fillRef : UInt64} (hkind : (w.registry.commitments (dcaCommitmentHash viem f)).status ≠ .NONE →
      (w.registry.commitments (dcaCommitmentHash viem f)).kind = .DCA)
    (hret : (entry net (m, .executeCommitment (dcaCommitmentHash viem f) n proof fillRef)
      w).CanReturn) :
    f.scheduledLo.toNat ≤ w.timestamp ∧ w.timestamp ≤ f.scheduledHi.toNat + 300
      ∧ w.timestamp ≤ f.expiry.toNat := by
  obtain ⟨y, hy⟩ := CommitmentRegistry.Authorised.of_canReturn hret
  have hk := hkind (by rw [hy.pending]; decide)
  obtain ⟨hpast, hfresh, rfl⟩ := (CommitmentRegistry.fillReference_dca hk).1 hy.reference
  obtain ⟨p, x, hmain, hwords, hp⟩ :=
    hsound proof _ (hk ▸ hy.configured) (hk ▸ hy.verified)
  obtain ⟨hc, hfill, -, hterms⟩ := publicInputs_words hwords
  obtain ⟨haddr, hcommit, ⟨hlo, hhi⟩, -, -⟩ := Circuits.Dca.main_eq_ok.1 hmain
  -- one hash, hence one preimage
  have hhash : hashToField viem.keccak256 (viem.encodePacked f.packed)
      = hashToField viem.keccak256 (Circuits.Dca.commitmentPreimage x.terms p).toList := by
    apply Fin.ext
    rw [← reduceToField_digest, show hashToField viem.keccak256 _ = _ from hcommit, hc]
    rfl
  obtain ⟨hplo, hphi, hexp⟩ := schedule_of_preimage hviem haddr (hinj hf hp hhash)
  rw [hfill, hplo] at hlo
  rw [hfill, hphi] at hhi
  have hlive : w.timestamp ≤ f.expiry.toNat := by
    rw [← hexp, hterms]
    exact hy.live
  have hlo' := UInt64.le_iff_toNat_le.1 hlo
  have hhi' := UInt64.le_iff_toNat_le.1 hhi
  omega

-- ================================================================= the theorem

/-- The call that returned executed `h`. -/
def Executes (h : Bytes32) (x : Receipt) : Prop :=
  ∃ n proof fillRef, x.call = .executeCommitment h n proof fillRef

/-- Fields hashed for the windows of a schedule, with preimages in use. -/
def Scheduled (viem : Viem) (used : Set (List UInt8)) (schedule : List Window)
    (fields : List DcaPreimageFields) : Prop :=
  List.Forall₂ (fun r f => r.Fits f ∧ viem.encodePacked f.packed ∈ used) schedule fields

theorem Scheduled.get {schedule : List Window} {fields : List DcaPreimageFields}
    (h : Scheduled viem used schedule fields) {i : ℕ} {f : DcaPreimageFields}
    (hf : fields[i]? = some f) :
    ∃ r, schedule[i]? = some r ∧ r.Fits f ∧ viem.encodePacked f.packed ∈ used := by
  induction h generalizing i with
  | nil => cases hf
  | @cons r g schedule fields hrg _ ih =>
      cases i with
      | zero => cases hf; exact ⟨r, rfl, hrg⟩
      | succ i => exact ih hf

/-- The hashes of the rounds. -/
def roundHashes (viem : Viem) (fields : List DcaPreimageFields) : List Bytes32 :=
  fields.map (dcaCommitmentHash viem)

/-- In a run every round has executed in its window. -/
theorem executed_in_window (hviem : viem.FollowsAbi)
    (hinj : Set.InjOn (hashToField viem.keccak256) used) {fields : List DcaPreimageFields}
    {w : World} {c : ChainConfig} (hd : Deployed w)
    (hrun : (chain net).Run (RoundMoves viem.keccak256 used (roundHashes viem fields)) ⟨w, []⟩ c)
    {r : Window} {f : DcaPreimageFields} (hmem : f ∈ fields) (hr : r.Fits f)
    (hf : viem.encodePacked f.packed ∈ used) {x : Receipt} (hx : x ∈ c.world.receipts)
    (hexec : Executes (dcaCommitmentHash viem f) x) :
    r.scheduledLo ≤ x.timestamp ∧ x.timestamp ≤ min (r.scheduledHi + 300) r.expiry := by
  obtain ⟨n, proof, fillRef, hcall⟩ := hexec
  rcases receipts_justified hrun.reached hx with hold | ⟨w₁, m, ⟨hmove, st, hst⟩, -, htime, hret⟩
  · rw [hd.receipts] at hold
    cases hold
  · rw [hcall] at hret
    have hround : dcaCommitmentHash viem f ∈ roundHashes viem fields := List.mem_map_of_mem hmem
    obtain ⟨hlo, hhi, hexp⟩ := executes_in_window hviem hinj hmove.1 hf
      (knownRounds_run hd hst _ hround) hret
    have hfit := hr.scheduledLo
    have hfit' := hr.scheduledHi
    have hfit'' := hr.expiry
    simp only [DcaPreimageFields.witness] at hfit hfit'
    rw [← htime, le_min_iff]
    omega

/-- DCA rounds are well formed and settle in schedule order. There is a
window for each round, ordered in itself, ahead of the clock and apart from
the next; and what is executed of the rounds, by whomever, is executed in
its window and the 300 seconds of grace, so that rounds which are far
enough apart settle one after the other. -/
theorem rounds_settle_in_order {interval : ℤ} (hI : 1 ≤ interval) {now : ℤ} {roundCount : ℕ}
    {schedule : List Window} (hschedule : schedule = buildSchedule roundCount interval now) :
    schedule.length = roundCount
    ∧ (∀ (i : ℕ) r, schedule[i]? = some r →
      now < r.scheduledLo ∧ r.scheduledLo ≤ r.scheduledHi ∧ r.scheduledHi < r.expiry
        ∧ (∀ r', schedule[i + 1]? = some r' → r.scheduledHi < r'.scheduledLo)
        ∧ ∀ keccak256 p (x : PublicInputs), r.Opens p x.terms.expiry →
            Circuits.Dca.main keccak256 p x ≠ .error "commitment expired")
    ∧ ∀ (net : Net) (viem : Viem) (used : Set (List UInt8)) (fields : List DcaPreimageFields)
        (w : World) (c : ChainConfig),
      viem.FollowsAbi → Set.InjOn (hashToField viem.keccak256) used →
      Scheduled viem used schedule fields → Deployed w →
      (chain net).Run (RoundMoves viem.keccak256 used (roundHashes viem fields)) ⟨w, []⟩ c →
      (∀ (i : ℕ) r f, schedule[i]? = some r → fields[i]? = some f →
        ∀ x ∈ c.world.receipts, Executes (dcaCommitmentHash viem f) x →
          r.scheduledLo ≤ x.timestamp ∧ x.timestamp ≤ min (r.scheduledHi + 300) r.expiry)
      ∧ (429 ≤ interval → ∀ (i j : ℕ) f g, i < j → fields[i]? = some f → fields[j]? = some g →
        ∀ x ∈ c.world.receipts, ∀ y ∈ c.world.receipts, Executes (dcaCommitmentHash viem f) x →
          Executes (dcaCommitmentHash viem g) y → x.timestamp < y.timestamp) := by
  have hround : ∀ {i : ℕ} {r}, schedule[i]? = some r → r = window interval now i := by
    intro i r hr
    subst hschedule
    obtain ⟨hlt, rfl⟩ := List.getElem?_eq_some_iff.1 hr
    exact getElem_buildSchedule hlt
  refine ⟨?_, fun i r hr => ?_, ?_⟩
  · rw [hschedule, length_buildSchedule]
  · obtain ⟨hnow, hle, hlt⟩ := window_ordered hI now i
    rw [hround hr]
    refine ⟨hnow, hle, hlt, fun r' hr' => ?_, fun keccak256 p x hopens => main_ne_expired hI hopens⟩
    rw [hround hr']
    exact window_apart hI now i
  · intro net viem used fields w c hviem hinj hsched hd hrun
    have hin : ∀ {i : ℕ} {f}, fields[i]? = some f → ∀ x ∈ c.world.receipts,
        Executes (dcaCommitmentHash viem f) x → (window interval now i).scheduledLo ≤ x.timestamp
          ∧ x.timestamp
            ≤ min ((window interval now i).scheduledHi + 300) (window interval now i).expiry := by
      intro i f hf x hx hexec
      obtain ⟨r, hr, hfits, hused⟩ := hsched.get hf
      rw [← hround hr]
      exact executed_in_window hviem hinj hd hrun (List.mem_of_getElem? hf) hfits hused hx hexec
    refine ⟨fun i r f hr hf x hx hexec => ?_, fun hI' i j f g hij hf hg x hx y hy hxe hye => ?_⟩
    · rw [hround hr]
      exact hin hf x hx hexec
    · obtain ⟨-, hhi⟩ := hin hf x hx hxe
      obtain ⟨hlo, -⟩ := hin hg y hy hye
      have hfar := window_far hI' now i
      have hmono := window_mono hI now (show i + 1 ≤ j from hij)
      have hle := le_min_iff.1 hhi
      omega

-- ==================================================================== a sample

/-- Digests for the sample rounds: the number in eight bytes of the
preimage, the window's start in a commitment and the end of the nonce in a
nullifier. -/
def roundKeccak : Hash := fun bs =>
  bytesBE 32 (ofBE ((bs.drop (if bs.length = 192 then 104 else 56)).take 8))

def roundViem : Viem := ⟨roundKeccak, fun vs => pack (vs.map Packed.abi)⟩

/-- What user 8 pays a round: 30 of token 10 for token 11. -/
def sampleRounds : RoundOrder := ⟨10, 11, 30, 7⟩

/-- Two rounds from 1000 on, 429 seconds apart. -/
theorem sampleSchedule :
    buildSchedule 2 429 1000 = [⟨1365, 1493, 1922⟩, ⟨1794, 1922, 2351⟩] := by decide +kernel

def firstRound : DcaPreimageFields := ⟨10, 11, 30, 0, 1365, 1493, 1922, 6, 7⟩

def secondRound : DcaPreimageFields := ⟨10, 11, 30, 0, 1794, 1922, 2351, 8, 7⟩

def sampleRoundFields : List DcaPreimageFields := [firstRound, secondRound]

/-- A run of the circuit for a round, at some time. -/
def roundInputs (f : DcaPreimageFields) (time : UInt64) : PublicInputs :=
  ⟨.of f.scheduledLo.toNat, time, .of f.nonce.val, f.terms⟩

/-- The verifier 21 accepts the end of the first round and the start of
the second. -/
def roundVerify (v : Address) (_ : List UInt8) (inputs : List Bytes32) : Bool :=
  v == 21 && (inputs.map Fin.val == (roundInputs firstRound 1493).words
    || inputs.map Fin.val == (roundInputs secondRound 1794).words)

def roundWorld : World :=
  { sampleWorld with ext := { sampleWorld.ext with verify := roundVerify } }

/-- User 8 registers the rounds and executes each at the last, and the
first, time there is. -/
def sampleRoundRun : List ChainMove :=
  sampleSetup ++
    [call 8 (.registerCommitmentBatch [1365, 1794] 10 11 [30, 30] [0, 0] [1922, 2351] .DCA),
      .outside (.tick 793), call 8 (.executeCommitment 1365 6 [] 1493), .answer ⟨30, 30⟩,
      .outside (.tick 1), call 8 (.executeCommitment 1794 8 [] 1794), .answer ⟨30, 30⟩]

instance aside_ext : Aside World.ext where
  vault _ _ _ := rfl
  registry _ _ _ := rfl
  token _ _ _ _ _ := rfl
  log _ _ := rfl
  approved _ _ := rfl
  anyRegistry _ _ := rfl
  gasVault _ _ := rfl
  eth _ _ _ _ := rfl

/-- Outside code is what it was if no move replaces it. -/
theorem ext_of_run {Q : World → ChainMove → Prop} (hQ : ∀ w x, ¬Q w (.outside (.externals x)))
    {w : World} {c : ChainConfig} (hrun : (chain net).Run Q ⟨w, []⟩ c) :
    c.world.ext = w.ext := by
  refine hrun.frames (fun i => ?_) ?_
  · have hreceipt : (receipt i.1 i.2).Frames World.ext := Code.Frames.modify fun _ => rfl
    have hentry : (dispatch net i.1 i.2 >>= fun _ => receipt i.1 i.2).Frames World.ext := .andThen
    exact hentry
  · intro e w w' hw he
    cases e with
    | externals x => exact absurd hw (hQ w x)
    | tick x => cases he; rfl
    | transfer | mint | payEth =>
        simp only [chain, Outside.effect] at he
        split at he
        · cases he; rfl
        · cases he

/-- The preimages of the two rounds. -/
def roundUsed : Set (List UInt8) :=
  {bs | ∃ f ∈ sampleRoundFields, roundViem.encodePacked f.packed = bs}

theorem sampleRoundFields_canonical : ∀ f ∈ sampleRoundFields, f.Canonical := by
  intro f hf
  simp only [sampleRoundFields, List.mem_cons, List.not_mem_nil, or_false] at hf
  rcases hf with rfl | rfl
  · exact ⟨by decide, by decide, by decide, by decide⟩
  · exact ⟨by decide, by decide, by decide, by decide⟩

theorem firstRound_mem : firstRound ∈ sampleRoundFields := .head _

theorem secondRound_mem : secondRound ∈ sampleRoundFields := .tail _ (.head _)

theorem roundInputs_sound {w : World} (hext : w.ext = roundWorld.ext) :
    DcaSound roundKeccak roundUsed w := by
  intro proof inputs _ hv
  rw [hext] at hv
  simp only [roundWorld, roundVerify, Bool.and_eq_true, Bool.or_eq_true, beq_iff_eq] at hv
  have hmain : ∀ f ∈ sampleRoundFields, ∀ time : UInt64,
      f.scheduledLo ≤ time → time ≤ f.scheduledHi → time < f.expiry →
      Circuits.Dca.main roundKeccak f.witness (roundInputs f time) = .ok ()
        ∧ (Circuits.Dca.commitmentPreimage f.terms f.witness).toList ∈ roundUsed := by
    have hhashes : ∀ f ∈ sampleRoundFields, f.terms.AddressFields
        ∧ hashToField roundKeccak (roundViem.encodePacked f.packed) = .of f.scheduledLo.toNat
        ∧ Circuits.computeNullifier roundKeccak f.witness.userSecret f.witness.nonce
          = .of f.nonce.val := by
      unfold Circuits.Terms.AddressFields
      decide +kernel
    intro f hf time hlo hhi hexp
    obtain ⟨haddr, hcommit, hnull⟩ := hhashes f hf
    have hpacked : roundViem.encodePacked f.packed
        = (Circuits.Dca.commitmentPreimage f.terms f.witness).toList :=
      f.packed_eq (fun _ => rfl) (sampleRoundFields_canonical f hf)
    rw [hpacked] at hcommit
    refine ⟨Circuits.Dca.main_eq_ok.2 ⟨haddr, hcommit, ⟨hlo, hhi⟩, hexp, hnull⟩, ?_⟩
    exact ⟨f, hf, hpacked⟩
  rcases hv.2 with hwords | hwords
  · obtain ⟨hok, hused⟩ :=
      hmain _ firstRound_mem 1493 (by decide) (by decide) (by decide)
    exact ⟨_, _, hok, hwords.symm, hused⟩
  · obtain ⟨hok, hused⟩ :=
      hmain _ secondRound_mem 1794 (by decide) (by decide) (by decide)
    exact ⟨_, _, hok, hwords.symm, hused⟩

theorem sampleRounds_scheduled :
    Scheduled roundViem roundUsed (buildSchedule 2 429 1000) sampleRoundFields := by
  have hfirst : roundFields sampleRounds ⟨1365, 1493, 1922⟩ 6 = some firstRound := by
    rw [roundFields, show toUint64 1365 = some 1365 by decide,
      show toUint64 1493 = some 1493 by decide, show toUint64 1922 = some 1922 by decide]
    rfl
  have hsecond : roundFields sampleRounds ⟨1794, 1922, 2351⟩ 8 = some secondRound := by
    rw [roundFields, show toUint64 1794 = some 1794 by decide,
      show toUint64 1922 = some 1922 by decide, show toUint64 2351 = some 2351 by decide]
    rfl
  have hused : ∀ f ∈ sampleRoundFields, roundViem.encodePacked f.packed ∈ roundUsed :=
    fun f hf => ⟨f, hf, rfl⟩
  rw [sampleSchedule]
  exact .cons ⟨roundFields_fits hfirst, hused firstRound firstRound_mem⟩
    (.cons ⟨roundFields_fits hsecond, hused secondRound secondRound_mem⟩ .nil)

theorem sampleRoundRun_dca {m : Msg} {c : Call} (h : .enter (m, c) ∈ sampleRoundRun) :
    DcaOnly [1365, 1794] c := by
  simp only [sampleRoundRun, sampleSetup, call, List.cons_append, List.nil_append,
    List.mem_cons, List.not_mem_nil, or_false, Move.enter.injEq, Prod.mk.injEq, reduceCtorEq,
    false_or] at h
  rcases h with ⟨-, rfl⟩ | ⟨-, rfl⟩ | ⟨-, rfl⟩ | ⟨-, rfl⟩ | ⟨-, rfl⟩ | ⟨-, rfl⟩
  · trivial
  · trivial
  · trivial
  · exact fun _ _ _ => rfl
  · trivial
  · trivial

theorem rounds_settle_in_order_sample :
    ∃ c, (chain sampleNet).play sampleRoundRun ⟨roundWorld, []⟩ = some c
      ∧ c.world.receipts.map Receipt.timestamp = [1000, 1000, 1000, 1000, 1793, 1794]
      ∧ ∀ x ∈ c.world.receipts, ∀ y ∈ c.world.receipts, Executes 1365 x → Executes 1794 y →
          x.timestamp ≤ 1793 ∧ 1794 ≤ y.timestamp ∧ x.timestamp < y.timestamp := by
  have hsome : ((chain sampleNet).play sampleRoundRun ⟨roundWorld, []⟩).isSome = true := by
    decide +kernel
  obtain ⟨c, hc⟩ := Option.isSome_iff_exists.1 hsome
  have htimes : c.world.receipts.map Receipt.timestamp
      = [1000, 1000, 1000, 1000, 1793, 1794] := by
    rw [show c = Option.get _ hsome by simp [hc]]
    rfl
  have hd : Deployed roundWorld :=
    ⟨⟨2, 3, 4, 7, rfl⟩, fun _ _ _ => rfl, fun _ _ _ => rfl, fun _ => rfl, fun _ => rfl, rfl, rfl,
      rfl⟩
  have hhashes : roundHashes roundViem sampleRoundFields = [1365, 1794] := by decide +kernel
  have hplay : (chain sampleNet).Run (fun _ mv => mv ∈ sampleRoundRun) ⟨roundWorld, []⟩ c :=
    .of_play (fun _ _ hm => hm) hc
  have hrun : (chain sampleNet).Run
      (RoundMoves roundKeccak roundUsed (roundHashes roundViem sampleRoundFields))
      ⟨roundWorld, []⟩ c := by
    refine hplay.reached.mono fun w mv hw => ?_
    obtain ⟨hmem, st, hst⟩ := hw
    have hext : w.ext = roundWorld.ext := by
      refine ext_of_run (c := ⟨w, st⟩) (fun _ x hx => ?_) hst
      simp [sampleRoundRun, sampleSetup, call] at hx
    cases mv with
    | enter i =>
        obtain ⟨m, call⟩ := i
        rw [hhashes]
        exact ⟨roundInputs_sound hext, sampleRoundRun_dca hmem⟩
    | _ => trivial
  have hinj : Set.InjOn (hashToField roundViem.keccak256) roundUsed := by
    have hlist : ∀ f ∈ sampleRoundFields, ∀ g ∈ sampleRoundFields,
        hashToField roundKeccak (roundViem.encodePacked f.packed)
          = hashToField roundKeccak (roundViem.encodePacked g.packed) →
        roundViem.encodePacked f.packed = roundViem.encodePacked g.packed := by
      decide +kernel
    intro a ha b hb hab
    obtain ⟨f, hf, rfl⟩ := ha
    obtain ⟨g, hg, rfl⟩ := hb
    exact hlist f hf g hg hab
  have hschedule : buildSchedule 2 429 1000 = buildSchedule 2 429 1000 := rfl
  obtain ⟨-, -, hruns⟩ := rounds_settle_in_order (show (1 : ℤ) ≤ 429 by decide) hschedule
  obtain ⟨hin, horder⟩ := hruns sampleNet roundViem roundUsed sampleRoundFields roundWorld c
    (fun _ => rfl) hinj sampleRounds_scheduled hd hrun
  have h₀ : dcaCommitmentHash roundViem firstRound = 1365 := by decide +kernel
  have h₁ : dcaCommitmentHash roundViem secondRound = 1794 := by decide +kernel
  refine ⟨c, hc, htimes, fun x hx y hy hxe hye => ?_⟩
  rw [← h₀] at hxe
  rw [← h₁] at hye
  rw [sampleSchedule] at hin
  have hx' := (hin 0 ⟨1365, 1493, 1922⟩ firstRound rfl rfl x hx hxe).2
  have hy' := (hin 1 ⟨1794, 1922, 2351⟩ secondRound rfl rfl y hy hye).1
  have hxy := horder (by decide) 0 1 _ _ (by decide) rfl rfl x hx y hy hxe hye
  simp only at hx' hy'
  omega

end Zstrategy.Client
