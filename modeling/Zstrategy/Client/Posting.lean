/-
What the two pages post to the backend, and that it is served. The orders
page posts one strategy, the DCA page a group of rounds; either way the row
the backend keeps triggers the keeper with the strings of the strategy that
was committed to, and the backend's own fill condition is the circuit's.

# The stages

From the page to the row there are three steps: what a registration commits
to, what is posted of it, and which row that becomes. For an order they are
`registered_order`, `check_post` and `row_of_post`; for the rounds of a
batch `registered_rounds`, `lengths_of_batch` and `round_of_post`. From the
row on, Fulfilment.lean takes over.
-/
import Zstrategy.Client.DcaPage
import Zstrategy.Client.Fulfilment

namespace Zstrategy.Client

open Lib Contracts Keeper

open Circuits (P)

variable {viem : Viem} {lib : Ethers} {abi : Abi} {js : Js} {prover : Prover}
  {text : Address → String}

-- ============================================================== the orders page

/-- `setPendingPost` of the orders page. -/
def OrdersPage.post (p : OrdersPage) (viem : Viem) (text : Address → String) (chainId : ℤ)
    (call : RegisterCall) : Backend.RegisterStrategyBody where
  commitmentHash := hex call.commitmentHash
  kind := if p.inputs.kind = .MARKET then "MARKET" else "LIMIT"
  chainID := chainId
  tokenIn := text (p.form 0 0).tokenIn
  tokenOut := text (p.form 0 0).tokenOut
  size := toString p.inputs.amountBig
  minOut := toString p.inputs.minOutBig.val
  expiry := (p.expiry.getD 0 : ℕ)
  limitPrice := toString p.priceBig
  direction := if (p.form 0 0).direction = .SELL then 1 else 0
  nonce := hex p.inputs.nonce
  nullifier := hex (nullifierHash viem call.order.userSecret p.inputs.nonce)
  scheduledLo := none
  scheduledHi := none
  encryptedShares := call.encryptedShares

variable {env : SubmitEnv} {p : OrdersPage} {call : RegisterCall}

section Rounds

variable {d : DcaInputs} {env : DcaEnv} {call : RegisterBatchCall}

/-- What a registration of the DCA page is made of. -/
theorem registered_rounds (hcall : d.handleSubmit viem text env = .registered call) :
    ∃ address signature rounds shares, d.roundCountValid = true
      ∧ (d.schedule env).mapM (fun x => d.fields (deriveUserSecret viem signature) x.1 x.2)
        = .ok rounds
      ∧ call =
        { commitmentHashes := rounds.map (dcaCommitmentHash viem)
          tokenIn := d.tokenIn
          tokenOut := d.tokenOut
          sizes := List.replicate d.roundCount.toNat d.sizeBig
          minOuts := List.replicate d.roundCount.toNat 0
          expiries := (d.schedule env).map fun x => x.1.expiry
          kind := DCA_KIND
          post :=
            { chainID := d.chainId
              tokenIn := text d.tokenIn
              tokenOut := text d.tokenOut
              encryptedShares := shares
              rounds := (((d.schedule env).zip rounds).mapIdx fun i x =>
                d.record viem text address (deriveStrategyId viem address d.sharedNonce)
                  (env.now.val / 1000) i x.1.1 x.2).map DcaInputs.round } } := by
  unfold DcaInputs.handleSubmit at hcall
  split at hcall
  · cases hcall
  · rename_i address _
    split at hcall
    · cases hcall
    · rename_i hguard
      split at hcall
      · rename_i made hmade
        cases hcall
        unfold DcaInputs.submit at hmade
        obtain ⟨_, -, hmade⟩ := bind_eq_ok.1 hmade
        obtain ⟨signature, -, hmade⟩ := bind_eq_ok.1 hmade
        obtain ⟨rounds, hrounds, hmade⟩ := bind_eq_ok.1 hmade
        obtain ⟨shares, -, hmade⟩ := bind_eq_ok.1 hmade
        obtain ⟨_, -, hmade⟩ := bind_eq_ok.1 hmade
        cases hmade
        have hvalid : d.roundCountValid = true := by
          by_contra hinvalid
          exact hguard (.inr (.inr (Bool.eq_false_of_not_eq_true hinvalid)))
        exact ⟨address, signature, rounds, shares, hvalid, hrounds, rfl⟩
      · cases hcall

/-- Entry `i` of a schedule is its window `i`, with the nonce drawn for
it. -/
theorem schedule_get {i : ℕ} {x : Window × Bytes32} (hx : (d.schedule env)[i]? = some x) :
    i < d.roundCount.toNat
      ∧ x = (window d.interval (env.now.val / 1000 : ℕ) i, env.randomBytes32 i) := by
  unfold DcaInputs.schedule buildSchedule at hx
  obtain ⟨hwindow, hnonce⟩ := List.getElem?_zip_eq_some.1 hx
  rw [List.getElem?_map, Option.map_eq_some_iff] at hwindow hnonce
  obtain ⟨j, hj, hwindow⟩ := hwindow
  obtain ⟨k, hk, hnonce⟩ := hnonce
  obtain ⟨hlt, hij⟩ := List.getElem?_eq_some_iff.1 hj
  rw [List.length_range] at hlt
  rw [List.getElem_range] at hij
  rw [hj] at hk
  cases hk
  subst hij
  exact ⟨hlt, Prod.ext hwindow.symm hnonce.symm⟩

/-- The fields of a round, from its window and its nonce. -/
theorem fields_eq_ok {userSecret nonce : Bytes32} {r : Window} {f : DcaPreimageFields}
    (h : d.fields userSecret r nonce = .ok f) :
    d.sizeBig < 2 ^ 256 ∧ r.Fits f
      ∧ f = { tokenIn := d.tokenIn, tokenOut := d.tokenOut, size := .ofNat _ d.sizeBig,
              minOut := 0, scheduledLo := f.scheduledLo, scheduledHi := f.scheduledHi,
              expiry := f.expiry, nonce, userSecret } := by
  unfold DcaInputs.fields at h
  obtain ⟨hsize, h⟩ := expect_bind_eq_ok.1 h
  split at h
  · cases h
  · rename_i g hg
    cases h
    refine ⟨hsize, roundFields_fits hg, ?_⟩
    obtain ⟨lo, hlo, hg⟩ := Option.bind_eq_some_iff.1 hg
    obtain ⟨hi, hhi, hg⟩ := Option.bind_eq_some_iff.1 hg
    obtain ⟨expiry, hexp, hg⟩ := Option.bind_eq_some_iff.1 hg
    cases hg
    rfl

/-- The times of a schedule are far below what a double holds. -/
theorem window_le {interval : ℤ} (hinterval : interval ∈ INTERVALS.map Prod.snd) {now : ℕ}
    (hnow : now < 8640000000001) {i : ℕ} (hi : i < 10) :
    (window interval now i).expiry ≤ 2 ^ 53 := by
  rw [window_eq]
  simp only [INTERVALS, List.map_cons, List.map_nil, List.mem_cons, List.not_mem_nil, or_false]
    at hinterval
  rcases hinterval with rfl | rfl | rfl | rfl
  · show _ + _ + _ ≤ _
    omega
  · show _ + _ + _ ≤ _
    omega
  · show _ + _ + _ ≤ _
    omega
  · show _ + _ + _ ≤ _
    omega

theorem interval_pos {interval : ℤ} (hinterval : interval ∈ INTERVALS.map Prod.snd) :
    1 ≤ interval := by
  simp only [INTERVALS, List.map_cons, List.map_nil, List.mem_cons, List.not_mem_nil, or_false]
    at hinterval
  omega

theorem DcaInputs.interval_mem (d : DcaInputs) : d.interval ∈ INTERVALS.map Prod.snd :=
  List.mem_map_of_mem d.intervalKey.2

theorem seconds_lt (time : Millis) : time.val / 1000 < 8640000000001 := by
  have hlt := time.isLt
  omega

theorem roundCount_le (hvalid : d.roundCountValid = true) {i : ℕ} (hi : i < d.roundCount.toNat) :
    i < 10 := by
  have hle := (of_decide_eq_true hvalid).2
  omega

/-- The times of a schedule are numbers of 64 bits. -/
theorem roundFields_window {o : RoundOrder} {nonce : Bytes32} {interval : ℤ}
    (hinterval : interval ∈ INTERVALS.map Prod.snd) {now : ℕ} (hnow : now < 8640000000001) {i : ℕ}
    (hi : i < 10) : ∃ f, roundFields o (window interval now i) nonce = some f := by
  obtain ⟨hlo, hordered, hexpires⟩ := window_ordered (interval_pos hinterval) now i
  have hsafe := window_le hinterval hnow hi
  have hfits : ∀ x : ℤ, 0 ≤ x → x ≤ 2 ^ 53 → ∃ y, toUint64 x = some y := by
    intro x hnonneg hle
    exact ⟨_, if_pos ⟨hnonneg, by omega⟩⟩
  obtain ⟨lo, hlo⟩ := hfits (window interval now i).scheduledLo (by omega) (by omega)
  obtain ⟨hi, hhi⟩ := hfits (window interval now i).scheduledHi (by omega) (by omega)
  obtain ⟨expiry, hexp⟩ := hfits (window interval now i).expiry (by omega) (by omega)
  unfold roundFields
  rw [hlo, hhi, hexp]
  exact ⟨_, rfl⟩

/-- A click registers the rounds if nothing it waits for fails. -/
theorem registered_of_succeeds (henv : env.Succeeds) {address : Address}
    (haddress : d.account.address = some address) (hconnected : d.account.isConnected = true)
    (hsize : d.sizeBig ≠ 0) (hfits : d.sizeBig < 2 ^ 256) (hvalid : d.roundCountValid = true) :
    ∃ call, d.handleSubmit viem text env = .registered call := by
  obtain ⟨keepers, hkeepers, hsplit⟩ := henv.keepers
  obtain ⟨signature, hsigns⟩ := henv.signs
    (strategyIdSigningMessage (deriveStrategyId viem address d.sharedNonce))
  have hmade : ∃ call, d.submit viem text env address = .ok call := by
    obtain ⟨rounds, hrounds⟩ : ∃ rounds, (d.schedule env).mapM
        (fun x => d.fields (deriveUserSecret viem signature) x.1 x.2) = .ok rounds := by
      refine exists_mapM fun x hx => ?_
      obtain ⟨i, hx⟩ := List.getElem?_of_mem hx
      obtain ⟨hi, rfl⟩ := schedule_get hx
      obtain ⟨f, hf⟩ := roundFields_window d.interval_mem (seconds_lt env.now)
        (roundCount_le hvalid hi)
      refine ⟨f, expect_bind_eq_ok.2 ⟨hfits, ?_⟩⟩
      rw [hf]
    obtain ⟨shares, hshares⟩ := hsplit (deriveUserSecret viem signature)
    exact ⟨_, bind_eq_ok.2 ⟨_, hkeepers, bind_eq_ok.2 ⟨_, hsigns, bind_eq_ok.2 ⟨_, hrounds,
      bind_eq_ok.2 ⟨_, hshares, bind_eq_ok.2 ⟨_, henv.saves _, rfl⟩⟩⟩⟩⟩⟩
  obtain ⟨call, hmade⟩ := hmade
  unfold DcaInputs.handleSubmit
  rw [haddress]
  simp only [hconnected, hsize, hvalid, hmade, or_self, if_false, Bool.true_eq_false]
  exact ⟨call, rfl⟩

/-- A batch registers the rounds of its schedule and posts the same ones. -/
theorem lengths_of_batch (hcall : d.handleSubmit viem text env = .registered call) :
    call.post.rounds.length = d.roundCount.toNat
      ∧ call.commitmentHashes.length = d.roundCount.toNat := by
  obtain ⟨address, signature, rounds, shares, -, hrounds, rfl⟩ := registered_rounds hcall
  have hschedule : (d.schedule env).length = d.roundCount.toNat := by
    unfold DcaInputs.schedule
    rw [List.length_zip, length_buildSchedule, List.length_map, List.length_range, min_self]
  have hlength : rounds.length = d.roundCount.toNat := (length_of_mapM hrounds).trans hschedule
  constructor
  · rw [List.length_map, List.length_mapIdx, List.length_zip, hschedule, hlength, min_self]
  · rw [List.length_map, hlength]

/-- A posted round, with the fields it commits to. -/
theorem round_of_post (hcall : d.handleSubmit viem text env = .registered call) {i : ℕ}
    {input : Backend.DcaRoundInput} (hinput : call.post.rounds[i]? = some input) :
    ∃ signature f, i < d.roundCount.toNat ∧ d.roundCountValid = true
      ∧ d.fields (deriveUserSecret viem signature)
          (window d.interval (env.now.val / 1000 : ℕ) i) (env.randomBytes32 i) = .ok f
      ∧ ((call.tokenIn, call.tokenOut) = (d.tokenIn, d.tokenOut)
        ∧ call.commitmentHashes[i]? = some (dcaCommitmentHash viem f)
        ∧ call.sizes[i]? = some d.sizeBig ∧ call.minOuts[i]? = some 0
        ∧ call.expiries[i]? = some (window d.interval (env.now.val / 1000 : ℕ) i).expiry)
      ∧ (call.post.strategy input).executeRequest
        = { commitmentHash := hex (dcaCommitmentHash viem f)
            kind := "DCA"
            tokenIn := text d.tokenIn
            tokenOut := text d.tokenOut
            size := toString d.sizeBig
            minOut := "0"
            expiry := (window d.interval (env.now.val / 1000 : ℕ) i).expiry
            limitPrice := "0"
            direction := 0
            nonce := hex f.nonce
            nullifier := hex (dcaNullifierHash viem f.userSecret f.nonce)
            scheduledLo := some (window d.interval (env.now.val / 1000 : ℕ) i).scheduledLo
            scheduledHi := some (window d.interval (env.now.val / 1000 : ℕ) i).scheduledHi } := by
  obtain ⟨address, signature, rounds, shares, hvalid, hrounds, rfl⟩ := registered_rounds hcall
  rw [List.getElem?_map, Option.map_eq_some_iff] at hinput
  obtain ⟨record, hrecord, rfl⟩ := hinput
  rw [List.getElem?_mapIdx, Option.map_eq_some_iff] at hrecord
  obtain ⟨⟨x, f⟩, hx, rfl⟩ := hrecord
  obtain ⟨hsched, hround⟩ := List.getElem?_zip_eq_some.1 hx
  obtain ⟨g, hg, hfields⟩ := get_of_mapM hrounds hsched
  cases hround.symm.trans hg
  obtain ⟨hi, rfl⟩ := schedule_get hsched
  refine ⟨signature, f, hi, hvalid, hfields, ⟨rfl, ?_, ?_, ?_, ?_⟩, rfl⟩
  · rw [List.getElem?_map, hround]
    rfl
  · exact List.getElem?_replicate_of_lt hi
  · exact List.getElem?_replicate_of_lt hi
  · rw [List.getElem?_map, hsched]
    rfl

/-- Every round that the page registers in a batch is posted, and served as
it was committed to: the batch registers its fields, the row of the backend
triggers in its window, which is all the circuit asks for, and the trigger
stands for the round with the keeper and the registry (see `Served` for
what the registry asks for beyond the proof). -/
theorem posted_round_served (hviem : viem.FollowsAbi) (hlib : Readable lib text)
    (hjs : js.Documented) (habi : abi.Documented lib)
    (hprover : prover.Documented abi viem.keccak256)
    (hnonces : ∀ i, (env.randomBytes32 i).val < P)
    (hcall : d.handleSubmit viem text env = .registered call) :
    call.post.rounds.length = call.commitmentHashes.length
    ∧ ∀ i < call.commitmentHashes.length, ∃ input f, call.post.rounds[i]? = some input
      ∧ ((call.tokenIn, call.tokenOut) = (f.tokenIn, f.tokenOut)
        ∧ call.commitmentHashes[i]? = some (dcaCommitmentHash viem f)
        ∧ call.sizes[i]? = some f.size.val ∧ call.minOuts[i]? = some f.minOut.val
        ∧ call.expiries[i]? = some (f.expiry.toNat : ℤ))
      ∧ (∀ (now : ℕ) price, Backend.isFillConditionMet true (call.post.strategy input) now price
        = .ok (decide (f.scheduledLo.toNat ≤ now ∧ now ≤ f.scheduledHi.toNat)))
      ∧ (∀ time : UInt64, (Strategy.dca f).Fills time
        ↔ f.scheduledLo.toNat ≤ time.toNat ∧ time.toNat ≤ f.scheduledHi.toNat)
      ∧ Served viem lib js prover (.dca f) ((call.post.strategy input).executeRequest.body js) := by
  obtain ⟨hposted, hhashes⟩ := lengths_of_batch hcall
  refine ⟨hposted.trans hhashes.symm, fun i hlt => ?_⟩
  obtain ⟨input, hinput⟩ : ∃ input, call.post.rounds[i]? = some input :=
    ⟨_, List.getElem?_eq_getElem (by rw [hposted, ← hhashes]; exact hlt)⟩
  obtain ⟨signature, f, hi, hvalid, hfields, hbatch, hrequest⟩ := round_of_post hcall hinput
  obtain ⟨hsize, hfits, hf⟩ := fields_eq_ok hfields
  obtain ⟨-, hordered, hexpires⟩ :=
    window_ordered (interval_pos d.interval_mem) (env.now.val / 1000 : ℕ) i
  have hsafe := window_le d.interval_mem (seconds_lt env.now) (roundCount_le hvalid hi)
  obtain ⟨hlo, hhi, hexp⟩ := hfits
  simp only [DcaPreimageFields.witness] at hlo hhi
  generalize window d.interval (env.now.val / 1000 : ℕ) i = r at *
  obtain ⟨scheduledLo, scheduledHi, expiry⟩ := r
  simp only at hlo hhi hexp hordered hexpires hsafe hbatch hrequest
  subst hlo hhi hexp
  have hsizeVal : f.size.val = d.sizeBig := by
    rw [hf]
    exact Nat.mod_eq_of_lt hsize
  have hsecrets : (Strategy.dca f).SecretsFit := by
    rw [hf]
    exact ⟨reduceToField_lt _, hnonces i⟩
  have htimes : (Strategy.dca f).TimesFit := by
    refine ⟨?_, ?_, ?_⟩ <;> omega
  have hin : f.tokenIn = d.tokenIn := by rw [hf]
  have hout : f.tokenOut = d.tokenOut := by rw [hf]
  have hmin : f.minOut = 0 := by rw [hf]
  refine ⟨input, f, hinput, ?_, ?_, ?_, ?_⟩
  · rw [hin, hout, hsizeVal, hmin]
    exact hbatch
  · intro now price
    have hlo : (call.post.strategy input).scheduledLo = some (f.scheduledLo.toNat : ℤ) :=
      congrArg Backend.ExecuteRequest.scheduledLo hrequest
    have hhi : (call.post.strategy input).scheduledHi = some (f.scheduledHi.toNat : ℤ) :=
      congrArg Backend.ExecuteRequest.scheduledHi hrequest
    have hkind : (call.post.strategy input).kind = .DCA := rfl
    unfold Backend.isFillConditionMet
    rw [hkind, hlo, hhi]
    simp only [Nat.cast_le]
  · intro time
    have hlive : time.toNat ≤ f.scheduledHi.toNat → time.toNat < f.expiry.toNat := by omega
    show (f.scheduledLo ≤ time ∧ time ≤ f.scheduledHi) ∧ time < f.expiry ↔ _
    rw [UInt64.le_iff_toNat_le, UInt64.le_iff_toNat_le, UInt64.lt_iff_toNat_lt]
    exact ⟨And.left, fun h => ⟨h, hlive h.2⟩⟩
  · have hbody : (call.post.strategy input).executeRequest
        = (Strategy.dca f).executeRequest viem text := by
      rw [hrequest]
      unfold Strategy.executeRequest
      simp only [hin, hout, hsizeVal, hmin]
      rfl
    rw [hbody]
    exact served hviem hlib hjs habi hprover hsecrets htimes

end Rounds

-- ===================================================================== samples

/-- `0x` and 40 hex digits. -/
def printed (a : Address) : String := "0x" ++ String.ofList (lastDigits 16 40 a.val)

/-- The libraries, on texts in lower case. -/
def plainEthers : Ethers where
  bytes32 j := j.toBigInt.map fun x => Fin.ofNat (2 ^ 256) x.toNat
  address j := j.toBigInt.map fun x => Fin.ofNat (2 ^ 160) x.toNat
  shown := printed

def plainAbi : Abi where
  scalar j := j.toBigInt.bind fun x => if x.toNat < P then some x.toNat else none

def plainJs : Js where
  parse n := .finite n
  number _ := none
  shown
    | .finite q => toString q.num
    | .posInf => "Infinity"
    | .negInf => "-Infinity"

/-- A prover whose proofs are empty. -/
def plainProver : Prover where
  execute circuit inputs :=
    match plainAbi.read circuit inputs with
    | none => .error "InputParserError"
    | some a => (a.main sampleViem.keccak256).map fun _ => a
  generateProof a := .ok ⟨[], a.inputs.words⟩
  verifyProof _ data := .ok (data.proof = [])

theorem toBigInt_hex (x : Bytes32) : (Json.string (hex x)).toBigInt = some (x.val : ℤ) := by
  have hlt : x.val < 16 ^ 64 := Nat.lt_of_lt_of_le x.isLt (by decide)
  rw [hex_lastDigits, Json.toBigInt, Json.textToBigInt_lastDigits (by decide),
    Nat.mod_eq_of_lt hlt]

theorem toBigInt_printed (a : Address) :
    (Json.string (printed a)).toBigInt = some (a.val : ℤ) := by
  have hlt : a.val < 16 ^ 40 := Nat.lt_of_lt_of_le a.isLt (by decide)
  rw [printed, Json.toBigInt, Json.textToBigInt_lastDigits (by decide), Nat.mod_eq_of_lt hlt]

theorem plainEthers_readable : Readable plainEthers printed := by
  refine ⟨?_, ?_, ?_⟩
  · intro x
    simp only [plainEthers, toBigInt_hex, Option.map_some, Int.toNat_natCast,
      Fin.ofNat_val_eq_self]
  · intro a
    simp only [plainEthers, toBigInt_printed, Option.map_some, Int.toNat_natCast,
      Fin.ofNat_val_eq_self]
  · intro a h
    have hlength := congrArg (fun s => s.toList.length) h
    simp [printed] at hlength

theorem plainAbi_documented : plainAbi.Documented plainEthers := by
  refine ⟨?_, ?_, ?_⟩
  · intro n
    simp only [plainAbi, Json.toBigInt, Json.textToBigInt_toString, Option.bind_some,
      Int.toNat_natCast]
  · intro x
    simp only [plainAbi, toBigInt_hex, Option.bind_some, Int.toNat_natCast]
  · intro a
    have hlt : a.val < P := Nat.lt_trans a.isLt (by decide)
    simp only [plainAbi, plainEthers, toBigInt_printed, Option.bind_some, Int.toNat_natCast]
    exact if_pos hlt

theorem plainJs_documented : plainJs.Documented :=
  ⟨fun _ _ => rfl, fun _ _ => rfl⟩

theorem plainProver_execute (circuit : Circuits.Circuit) (inputs : InputMap)
    (a : Circuits.Assignment) :
    plainProver.execute circuit inputs = .ok a
      ↔ plainAbi.read circuit inputs = some a ∧ a.Accepted sampleViem.keccak256 := by
  show (match plainAbi.read circuit inputs with
    | none => Except.error "InputParserError"
    | some a => (a.main sampleViem.keccak256).map fun _ => a) = .ok a ↔ _
  unfold Circuits.Assignment.Accepted
  cases plainAbi.read circuit inputs with
  | none => simp
  | some b =>
      simp only [Option.some.injEq]
      refine ⟨?_, ?_⟩
      · intro h
        cases hmain : b.main sampleViem.keccak256 with
        | error e =>
            rw [hmain] at h
            cases h
        | ok u =>
            rw [hmain] at h
            cases h
            exact ⟨rfl, hmain⟩
      · intro h
        obtain ⟨rfl, hmain⟩ := h
        rw [hmain]
        rfl

theorem plainProver_documented : plainProver.Documented plainAbi sampleViem.keccak256 :=
  ⟨plainProver_execute, fun _ _ => ⟨_, rfl, rfl, rfl⟩⟩

/-- Two rounds, a day apart. -/
def twoRounds : DcaInputs where
  account := (marketInputs .BUY).account
  chainId := 421614
  pair := ⟨0xa1, 0xb2⟩
  side := .BUY
  sizeBig := 1000000
  roundCount := 2
  intervalKey := ⟨("24H", 86400), .tail _ (.tail _ (.head _))⟩
  sharedNonce := 5

def calmDcaEnv : DcaEnv where
  listKeepers := .ok [⟨"keeper-1", "0x04"⟩]
  signMessage _ := .ok [1]
  splitAndEncryptSecret _ keepers := .ok (keepers.map fun keeper => ⟨keeper.id, "0xaa"⟩)
  saveDcaRounds _ := .ok ()
  now := ⟨1700000000000, by omega⟩
  randomBytes32 i := Fin.ofNat _ (i % 10)

theorem calmDcaEnv_succeeds : calmDcaEnv.Succeeds :=
  ⟨⟨_, rfl, fun _ => ⟨_, rfl⟩⟩, fun _ => ⟨_, rfl⟩, fun _ => rfl⟩

/-- The first of the two rounds, and what becomes of it. -/
theorem posted_round_served_sample :
    ∃ call input f, twoRounds.handleSubmit sampleViem printed calmDcaEnv = .registered call
      ∧ call.post.rounds[0]? = some input
      ∧ call.commitmentHashes[0]? = some (dcaCommitmentHash sampleViem f)
      ∧ Served sampleViem plainEthers plainJs plainProver (.dca f)
        ((call.post.strategy input).executeRequest.body plainJs) := by
  obtain ⟨call, hcall⟩ : ∃ call, twoRounds.handleSubmit sampleViem printed calmDcaEnv
      = .registered call :=
    registered_of_succeeds calmDcaEnv_succeeds rfl rfl (by decide) (by decide) rfl
  have hnonces : ∀ i, (calmDcaEnv.randomBytes32 i).val < P := by
    intro i
    have hdigit : i % 10 < 10 := Nat.mod_lt i (by decide)
    exact Nat.lt_of_le_of_lt (Nat.mod_le _ _) (Nat.lt_trans hdigit (by decide))
  have hfirst : 0 < call.commitmentHashes.length := by
    rw [(lengths_of_batch hcall).2]
    decide
  obtain ⟨-, hrounds⟩ := posted_round_served (fun _ => rfl) plainEthers_readable
    plainJs_documented plainAbi_documented plainProver_documented hnonces hcall
  obtain ⟨input, f, hinput, ⟨-, hhash, -⟩, -, -, hserved⟩ := hrounds 0 hfirst
  exact ⟨call, input, f, hcall, hinput, hhash, hserved⟩

end Zstrategy.Client
