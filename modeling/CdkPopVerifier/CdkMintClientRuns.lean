import CdkPopVerifier.CdkMintClient

/-!
# The runs of the HTTP mint client

A swap is two choices and an unblinding with three calls between them: `selectKeyset` on the keysets
that the mint reports, `prepare` on the keys of the chosen keyset, and `constructProofs` on the
signatures.  `SwapRun` lists the runs that this gives, and `swap_panics_iff` the one way to panic.
-/

namespace CdkPopVerifier

open Fallible Interaction

variable {B Token : Type}

/-- A request for the keysets with its reply. -/
def getKeysetsEvent (mint : MintUrl) (r : Except CdkError (List (KeySetInfo B))) :
    Event (MintConnector B) := ⟨(mint, .getMintKeysets), r⟩

/-- A request for the keys of a keyset with its reply. -/
def getKeysetEvent (mint : MintUrl) (id : Id) (r : Except CdkError Keys) :
    Event (MintConnector B) := ⟨(mint, .getMintKeyset id), r⟩

/-- A posted swap with its reply. -/
def postSwapEvent (mint : MintUrl) (request : SwapRequest)
    (r : Except CdkError (List BlindSignature)) : Event (MintConnector B) :=
  ⟨(mint, .postSwap request), r⟩

theorem getKeysetsEvent_inj {m m' : MintUrl} {r r' : Except CdkError (List (KeySetInfo B))} :
    getKeysetsEvent m r = getKeysetsEvent m' r' ↔ m = m' ∧ r = r' := by
  simp [getKeysetsEvent]

theorem getKeysetEvent_inj {m m' : MintUrl} {id id' : Id} {r r' : Except CdkError Keys} :
    (getKeysetEvent m id r : Event (MintConnector B)) = getKeysetEvent m' id' r' ↔
      m = m' ∧ id = id' ∧ r = r' := by
  simp [getKeysetEvent, and_assoc]

theorem postSwapEvent_inj {m m' : MintUrl} {q q' : SwapRequest}
    {r r' : Except CdkError (List BlindSignature)} :
    (postSwapEvent m q r : Event (MintConnector B)) = postSwapEvent m' q' r' ↔
      m = m' ∧ q = q' ∧ r = r' := by
  simp [postSwapEvent, and_assoc]

theorem postSwapEvent_ne_getKeysetsEvent {m m' : MintUrl} {q : SwapRequest}
    {r : Except CdkError (List BlindSignature)} {r' : Except CdkError (List (KeySetInfo B))} :
    postSwapEvent m q r ≠ getKeysetsEvent m' r' := by
  simp [postSwapEvent, getKeysetsEvent]

theorem postSwapEvent_ne_getKeysetEvent {m m' : MintUrl} {q : SwapRequest} {id : Id}
    {r : Except CdkError (List BlindSignature)} {r' : Except CdkError Keys} :
    (postSwapEvent m q r : Event (MintConnector B)) ≠ getKeysetEvent m' id r' := by
  simp [postSwapEvent, getKeysetEvent]

namespace CdkMintClient

variable (C : Cashu B Token) (random : PreMintRandom)

/-- The total of the outputs of a swap of `proofs`. -/
def swapTotal (active : KeySetInfo B) (proofs : Proofs) : Except MintClientError Amount := do
  rejectIf (active.inputFeePpk ≠ 0) (.rejectedSwap ("active keyset " ++ active.id.hex ++
    " has non-zero input_fee_ppk; PoP v1 requires zero fee"))
  (proofs.totalAmount C.toTexts).mapError .rejectedSwap

/-- The outputs of a swap of `proofs`, with their secrets, unless drawing them panics. -/
def prepare (active : KeySetInfo B) (keys : Keys) (proofs : Proofs) :
    Option (Except MintClientError PreMintSecrets) :=
  match swapTotal C active proofs with
  | .error e => some (.error e)
  | .ok total => (random active.id total keys.keys).map fun r => r.mapError .rejectedSwap

/-- The body of a posted swap. -/
def swapRequest (proofs : Proofs) (preMint : PreMintSecrets) : SwapRequest where
  inputs := proofs
  outputs := preMint.blindedMessages

/-- What the client makes of the signatures of the mint. -/
def unblind (signatures : List BlindSignature) (preMint : PreMintSecrets) (keys : Keys) :
    Except MintClientError Proofs :=
  (constructProofs C signatures preMint.rs preMint.secrets keys).mapError .rejectedSwap

variable [DecidableEq B]

/-- The keyset of the outputs: an active one of the unit of the first input. -/
def selectKeyset (inputKeysetId : Id) (keysets : List (KeySetInfo B)) :
    Except MintClientError (KeySetInfo B) := do
  let unit ← inputUnit inputKeysetId keysets
  activeKeyset C unit keysets

theorem swap_cons (mint : MintUrl) (p : Proof) (ps : Proofs) :
    swap C random mint (p :: ps) = (do
      let keysets ← getMintKeysets mint
      let active ← attempt (selectKeyset C p.keysetId keysets)
      let keys ← getMintKeyset mint active.id
      let preMint ← unwind (prepare C random active keys (p :: ps))
      let signatures ← postSwap mint (swapRequest (p :: ps) preMint)
      attempt (unblind C signatures preMint keys)) := by
  have hprepare (active : KeySetInfo B) (keys : Keys) : (do
      let total ← attempt (swapTotal C active (p :: ps))
      unwind ((random active.id total keys.keys).map fun r => r.mapError .rejectedSwap) :
        ExceptT MintClientError (Prog (MintConnector B)) PreMintSecrets) =
      unwind (prepare C random active keys (p :: ps)) := by
    rw [prepare]
    cases swapTotal C active (p :: ps) <;> rfl
  simp only [← hprepare, swap, List.head?_cons, selectKeyset, swapTotal, attempt_bind, bind_assoc]
  rfl

/-! ## The stages -/

section

variable {C random}

theorem selectKeyset_eq_ok_iff {id : Id} {keysets : List (KeySetInfo B)} {active : KeySetInfo B} :
    selectKeyset C id keysets = .ok active ↔ ∃ k, keysets.find? (fun k => k.id = id) = some k ∧
      (keysets.filter KeySetInfo.active).find? (fun k' => k'.unit = k.unit) = some active := by
  simp only [selectKeyset, inputUnit, activeKeyset, bind_eq_ok_iff, okOr_eq_ok_iff,
    Option.map_eq_some_iff]
  constructor
  · rintro ⟨_, ⟨k, hk, rfl⟩, ha⟩
    exact ⟨k, hk, ha⟩
  · rintro ⟨k, hk, ha⟩
    exact ⟨_, ⟨k, hk, rfl⟩, ha⟩

omit [DecidableEq B]

theorem swapTotal_eq_ok_iff {active : KeySetInfo B} {proofs : Proofs} {total : Amount} :
    swapTotal C active proofs = .ok total ↔
      active.inputFeePpk = 0 ∧ total.toNat = proofs.value := by
  simp only [swapTotal, bind_eq_ok_iff, rejectIf_eq_ok_iff, mapError_eq_ok_iff,
    totalAmount_eq_ok_iff, not_not, exists_const]

/-- The outputs are those that are drawn for the total, when there is no fee. -/
theorem prepare_eq_iff {active : KeySetInfo B} {keys : Keys} {proofs : Proofs}
    {x : Option PreMintSecrets} :
    prepare C random active keys proofs = x.map .ok ↔ active.inputFeePpk = 0 ∧
      ∃ total, total.toNat = proofs.value ∧
        random active.id total keys.keys = x.map .ok := by
  rw [prepare]
  rcases h : swapTotal C active proofs with e | total
  · refine iff_of_false (by cases x <;> simp) ?_
    rintro ⟨hfee, total, hvalue, -⟩
    cases h.symm.trans (swapTotal_eq_ok_iff.2 ⟨hfee, hvalue⟩)
  · obtain ⟨hfee, hvalue⟩ := swapTotal_eq_ok_iff.1 h
    have htotal (total' : Amount) : total'.toNat = proofs.value ↔ total' = total := by
      rw [← hvalue, UInt64.toNat_inj]
    simp only [hfee, htotal, true_and, exists_eq_left]
    rcases random active.id total keys.keys with _ | e | preMint <;> cases x <;>
      simp [Except.mapError]

theorem prepare_eq_ok_iff {active : KeySetInfo B} {keys : Keys} {proofs : Proofs}
    {preMint : PreMintSecrets} :
    prepare C random active keys proofs = some (.ok preMint) ↔ active.inputFeePpk = 0 ∧
      ∃ total, total.toNat = proofs.value ∧
        random active.id total keys.keys = some (.ok preMint) :=
  prepare_eq_iff (x := some preMint)

theorem prepare_eq_none_iff {active : KeySetInfo B} {keys : Keys} {proofs : Proofs} :
    prepare C random active keys proofs = none ↔ active.inputFeePpk = 0 ∧
      ∃ total, total.toNat = proofs.value ∧ random active.id total keys.keys = none :=
  prepare_eq_iff (x := none)

theorem prepare_eq_error_iff {active : KeySetInfo B} {keys : Keys} {proofs : Proofs}
    {e : MintClientError} : prepare C random active keys proofs = some (.error e) ↔
      swapTotal C active proofs = .error e ∨ ∃ total m, swapTotal C active proofs = .ok total ∧
        random active.id total keys.keys = some (.error m) ∧ e = .rejectedSwap m := by
  rw [prepare]
  rcases swapTotal C active proofs with e' | total
  · simp
  · simp [mapError_eq_error_iff]

theorem constructProof_eq_ok_iff {keys : Keys} {s : BlindSignature} {r : SecretKey}
    {secret : Secret} {p : Proof} :
    constructProof C keys s r secret = .ok p ↔ ∃ a, keys.amountKey s.amount = some a ∧
      C.unblindMessage s.c r a = .ok p.c ∧ p.amount = s.amount ∧ p.keysetId = s.keysetId ∧
        p.secret = secret := by
  simp only [constructProof, bind_eq_ok_iff, okOr_eq_ok_iff]
  constructor
  · rintro ⟨a, ha, c, hc, ⟨⟩⟩
    exact ⟨a, ha, hc, rfl, rfl, rfl⟩
  · obtain ⟨amount, keysetId, secret', c⟩ := p
    rintro ⟨a, ha, hc, rfl, rfl, rfl⟩
    exact ⟨a, ha, c, hc, rfl⟩

theorem zip_rs_secrets (sigs : List BlindSignature) (preMint : PreMintSecrets) :
    (sigs.zip (preMint.map PreMint.r)).zip (preMint.map PreMint.secret) =
      (sigs.zip preMint).map fun x => ((x.1, x.2.r), x.2.secret) := by
  induction sigs generalizing preMint with
  | nil => rfl
  | cons s sigs ih =>
    rcases preMint with _ | ⟨m, preMint⟩
    · rfl
    · exact congrArg _ (ih preMint)

variable {keys : Keys} {sigs : List BlindSignature} {preMint : PreMintSecrets} {proofs : Proofs}

theorem unblind_eq_ok_iff :
    unblind C sigs preMint keys = .ok proofs ↔ sigs.length = preMint.length ∧
      (sigs.zip preMint).mapM (fun x => constructProof C keys x.1 x.2.r x.2.secret) =
        .ok proofs := by
  simp only [unblind, constructProofs, mapError_eq_ok_iff, bind_eq_ok_iff, rejectIf_eq_ok_iff,
    PreMintSecrets.rs, PreMintSecrets.secrets, zip_rs_secrets, List.mapM_map, List.length_map,
    or_self, not_not, exists_const, Function.comp_def]

/-- Unblinding succeeds when there is one signature per output and each of them can be unblinded. -/
theorem exists_unblind_eq_ok_iff :
    (∃ proofs, unblind C sigs preMint keys = .ok proofs) ↔ sigs.length = preMint.length ∧
      ∀ x ∈ sigs.zip preMint, ∃ p, constructProof C keys x.1 x.2.r x.2.secret = .ok p := by
  simp only [unblind_eq_ok_iff, exists_and_left, exists_mapM_eq_ok_iff]

/-- The new proofs have the amounts and the keyset ids of the signatures. -/
theorem unblind_map (h : unblind C sigs preMint keys = .ok proofs) :
    proofs.map Proof.amount = sigs.map BlindSignature.amount ∧
      proofs.map Proof.keysetId = sigs.map BlindSignature.keysetId := by
  obtain ⟨hlen, h⟩ := unblind_eq_ok_iff.1 h
  have hfst : (sigs.zip preMint).map Prod.fst = sigs := List.map_fst_zip (Nat.le_of_eq hlen)
  constructor
  · rw [map_eq_of_mapM h fun x p hp => (constructProof_eq_ok_iff.1 hp).choose_spec.2.2.1]
    exact (List.map_map ..).symm.trans (congrArg _ hfst)
  · rw [map_eq_of_mapM h fun x p hp => (constructProof_eq_ok_iff.1 hp).choose_spec.2.2.2.1]
    exact (List.map_map ..).symm.trans (congrArg _ hfst)

end

/-- The runs of a swap, by the stage at which they end. -/
inductive SwapRun (mint : MintUrl) : Proofs → List (Event (MintConnector B)) →
    Except MintClientError Proofs → Prop
  | empty : SwapRun mint [] [] (.error (.rejectedSwap "cannot swap empty proof set"))
  | keysetsFailed {p : Proof} {ps : Proofs} {e : CdkError} :
    SwapRun mint (p :: ps) [getKeysetsEvent mint (.error e)] (.error (mapCdkErr e))
  | noKeyset {p : Proof} {ps : Proofs} {keysets : List (KeySetInfo B)} {e : MintClientError}
      (hs : selectKeyset C p.keysetId keysets = .error e) :
    SwapRun mint (p :: ps) [getKeysetsEvent mint (.ok keysets)] (.error e)
  | keysFailed {p : Proof} {ps : Proofs} {keysets : List (KeySetInfo B)} {active : KeySetInfo B}
      {e : CdkError} (hs : selectKeyset C p.keysetId keysets = .ok active) :
    SwapRun mint (p :: ps)
      [getKeysetsEvent mint (.ok keysets), getKeysetEvent mint active.id (.error e)]
      (.error (mapCdkErr e))
  | notPrepared {p : Proof} {ps : Proofs} {keysets : List (KeySetInfo B)}
      {active : KeySetInfo B} {keys : Keys} {e : MintClientError}
      (hs : selectKeyset C p.keysetId keysets = .ok active)
      (hp : prepare C random active keys (p :: ps) = some (.error e)) :
    SwapRun mint (p :: ps)
      [getKeysetsEvent mint (.ok keysets), getKeysetEvent mint active.id (.ok keys)] (.error e)
  | postFailed {p : Proof} {ps : Proofs} {keysets : List (KeySetInfo B)}
      {active : KeySetInfo B} {keys : Keys} {preMint : PreMintSecrets} {e : CdkError}
      (hs : selectKeyset C p.keysetId keysets = .ok active)
      (hp : prepare C random active keys (p :: ps) = some (.ok preMint)) :
    SwapRun mint (p :: ps)
      [getKeysetsEvent mint (.ok keysets), getKeysetEvent mint active.id (.ok keys),
        postSwapEvent mint (swapRequest (p :: ps) preMint) (.error e)]
      (.error (mapCdkErr e))
  | posted {p : Proof} {ps : Proofs} {keysets : List (KeySetInfo B)}
      {active : KeySetInfo B} {keys : Keys} {preMint : PreMintSecrets}
      {signatures : List BlindSignature}
      (hs : selectKeyset C p.keysetId keysets = .ok active)
      (hp : prepare C random active keys (p :: ps) = some (.ok preMint)) :
    SwapRun mint (p :: ps)
      [getKeysetsEvent mint (.ok keysets), getKeysetEvent mint active.id (.ok keys),
        postSwapEvent mint (swapRequest (p :: ps) preMint) (.ok signatures)]
      (unblind C signatures preMint keys)

variable {C random} {mint : MintUrl} {proofs : Proofs} {t : List (Event (MintConnector B))}

omit [DecidableEq B] in
theorem keysets_runs_iff {r : Except MintClientError (List (KeySetInfo B))} :
    Runs (keysets mint).run t r ↔ ∃ r', t = [getKeysetsEvent mint r'] ∧ r'.mapError mapCdkErr = r :=
  runs_callExcept_iff

theorem swap_runs_iff {r : Except MintClientError Proofs} :
    Runs (swap C random mint proofs).run t r ↔ SwapRun C random mint proofs t r := by
  rcases proofs with _ | ⟨p, ps⟩
  · refine runs_ret_iff.trans ⟨?_, ?_⟩
    · rintro ⟨rfl, rfl⟩
      exact .empty
    · rintro ⟨⟩
      exact ⟨rfl, rfl⟩
  rw [swap_cons]
  simp only [getMintKeysets, getMintKeyset, postSwap, runs_except_bind_iff, runs_attempt_iff,
    runs_unwind_iff, runs_callExcept_ok_iff, runs_callExcept_error_iff]
  constructor
  · rintro (⟨_, rfl, _, e, rfl, rfl, rfl⟩ | ⟨_, _, keysets, rfl, ⟨_, rfl, rfl⟩, h⟩)
    · exact .keysetsFailed
    rcases h with ⟨e, rfl, rfl, he⟩ | ⟨_, _, active, rfl, ⟨rfl, hs⟩, h⟩
    · exact .noKeyset he
    rcases h with ⟨_, rfl, _, e, rfl, rfl, rfl⟩ | ⟨_, _, keys, rfl, ⟨_, rfl, rfl⟩, h⟩
    · exact .keysFailed hs
    rcases h with ⟨e, rfl, rfl, he⟩ | ⟨_, _, preMint, rfl, ⟨rfl, hp⟩, h⟩
    · exact .notPrepared hs he
    rcases h with ⟨_, rfl, _, e, rfl, rfl, rfl⟩ | ⟨_, _, signatures, rfl, ⟨_, rfl, rfl⟩, rfl, rfl⟩
    · exact .postFailed hs hp
    · exact .posted hs hp
  · rintro (_ | _ | he | hs | ⟨hs, he⟩ | ⟨hs, hp⟩ | ⟨hs, hp⟩)
    · exact .inl ⟨_, rfl, _, _, rfl, rfl, rfl⟩
    · exact .inr ⟨[_], [], _, rfl, ⟨_, rfl, rfl⟩, .inl ⟨_, rfl, rfl, he⟩⟩
    · exact .inr ⟨[_], [_], _, rfl, ⟨_, rfl, rfl⟩, .inr ⟨[], _, _, rfl, ⟨rfl, hs⟩,
        .inl ⟨_, rfl, _, _, rfl, rfl, rfl⟩⟩⟩
    · exact .inr ⟨[_], [_], _, rfl, ⟨_, rfl, rfl⟩, .inr ⟨[], _, _, rfl, ⟨rfl, hs⟩,
        .inr ⟨[_], [], _, rfl, ⟨_, rfl, rfl⟩, .inl ⟨_, rfl, rfl, he⟩⟩⟩⟩
    · exact .inr ⟨[_], [_, _], _, rfl, ⟨_, rfl, rfl⟩, .inr ⟨[], _, _, rfl, ⟨rfl, hs⟩,
        .inr ⟨[_], [_], _, rfl, ⟨_, rfl, rfl⟩, .inr ⟨[], _, _, rfl, ⟨rfl, hp⟩,
          .inl ⟨_, rfl, _, _, rfl, rfl, rfl⟩⟩⟩⟩⟩
    · exact .inr ⟨[_], [_, _], _, rfl, ⟨_, rfl, rfl⟩, .inr ⟨[], _, _, rfl, ⟨rfl, hs⟩,
        .inr ⟨[_], [_], _, rfl, ⟨_, rfl, rfl⟩, .inr ⟨[], _, _, rfl, ⟨rfl, hp⟩,
          .inr ⟨[_], [], _, rfl, ⟨_, rfl, rfl⟩, rfl, rfl⟩⟩⟩⟩⟩

/-- A swap panics where `PreMintSecrets::random` does, on the keys that the mint has reported. -/
theorem swap_panics_iff : Panics (swap C random mint proofs).run t ↔
    ∃ p ∈ proofs.head?, ∃ keysets active keys, selectKeyset C p.keysetId keysets = .ok active ∧
      prepare C random active keys proofs = none ∧
        t = [getKeysetsEvent mint (.ok keysets), getKeysetEvent mint active.id (.ok keys)] := by
  rcases proofs with _ | ⟨p, ps⟩
  · refine iff_of_false not_panics_ret ?_
    rintro ⟨_, ⟨⟩, -⟩
  rw [swap_cons]
  simp only [getMintKeysets, getMintKeyset, postSwap, panics_except_bind_iff, not_panics_attempt,
    not_panics_callExcept, panics_unwind_iff, runs_attempt_iff, runs_callExcept_ok_iff, false_or,
    and_false, exists_false, or_false, List.head?_cons, Option.mem_some_iff, exists_eq_left']
  constructor
  · rintro ⟨_, _, keysets, rfl, ⟨_, rfl, rfl⟩, _, _, active, rfl, ⟨rfl, hs⟩, _, _, keys, rfl,
      ⟨_, rfl, rfl⟩, rfl, hp⟩
    exact ⟨keysets, active, keys, hs, hp, rfl⟩
  · rintro ⟨keysets, active, keys, hs, hp, rfl⟩
    exact ⟨[_], [_], keysets, rfl, ⟨_, rfl, rfl⟩, [], _, active, rfl, ⟨rfl, hs⟩, [_], [], keys, rfl,
      ⟨_, rfl, rfl⟩, rfl, hp⟩

end CdkMintClient

end CdkPopVerifier
