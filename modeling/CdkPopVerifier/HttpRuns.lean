import CdkPopVerifier.CdkMintClientRuns
import CdkPopVerifier.MiddlewareRuns

/-!
# The validator over the HTTP mint client

`validateHttp` is the validator with `CdkMintClient` as its mint client.  The only run in which a
swap is posted successfully makes four calls, and its result is what `settle` makes of the
signatures; every other run fails.  `HttpPanic` lists the two ways to panic.
-/

namespace CdkPopVerifier

open Fallible Interaction PopValidator CdkMintClient

variable {B Token : Type}

/-- What becomes of the signatures of the mint: the client unblinds them, the validator adds up the
new proofs. -/
def settle (C : Cashu B Token) (requirement : PopRequirement B) (mint : MintUrl)
    (sigs : List BlindSignature) (preMint : PreMintSecrets) (keys : Keys) :
    Except (ValidationError B) (ValidatedPop B) :=
  (unblind C sigs preMint keys).mapError .ofMintClient >>= receive C requirement mint

theorem settle_eq_ok {C : Cashu B Token} {requirement : PopRequirement B} {mint : MintUrl}
    {sigs : List BlindSignature} {preMint : PreMintSecrets} {keys : Keys} {v : ValidatedPop B}
    (h : settle C requirement mint sigs preMint keys = .ok v) :
    unblind C sigs preMint keys = .ok v.newProofs ∧ v.mintUrl = mint ∧
      v.unit = requirement.unit ∧ v.amount.toNat = v.newProofs.value := by
  obtain ⟨newProofs, hnew, hv⟩ := bind_eq_ok_iff.1 h
  obtain ⟨rfl, hm, hu, ha⟩ := receive_eq_ok_iff.1 hv
  exact ⟨mapError_eq_ok_iff.1 hnew, hm, hu, ha⟩

/-- The signatures that do not settle are a rejection or a malformed token. -/
theorem settle_eq_error {C : Cashu B Token} {requirement : PopRequirement B} {mint : MintUrl}
    {sigs : List BlindSignature} {preMint : PreMintSecrets} {keys : Keys} {e : ValidationError B}
    (h : settle C requirement mint sigs preMint keys = .error e) :
    (∃ m, e = .mintRejectedSwap m) ∨ ∃ m, e = .malformedToken m := by
  rcases bind_eq_error_iff.1 h with he | ⟨newProofs, -, he⟩
  · obtain ⟨e', he', rfl⟩ := mapError_eq_error_iff.1 he
    obtain ⟨m, -, rfl⟩ := mapError_eq_error_iff.1 he'
    exact .inl ⟨m, rfl⟩
  · exact .inr ⟨_, (receive_eq_error_iff.1 he).1⟩

/-- A swap that the validator posts: the replies that lead to it and the choices made on the way. -/
structure Posting (B : Type) where
  mint : MintUrl
  keysets : List (KeySetInfo B)
  proofs : Proofs
  swapKeysets : List (KeySetInfo B)
  active : KeySetInfo B
  keys : Keys
  preMint : PreMintSecrets

namespace Posting

/-- The request that is posted. -/
def request (x : Posting B) : SwapRequest := swapRequest x.proofs x.preMint

/-- The calls up to and including the post. -/
def trace (x : Posting B) (r : Except CdkError (List BlindSignature)) :
    List (Event (MintConnector B)) :=
  [getKeysetsEvent x.mint (.ok x.keysets), getKeysetsEvent x.mint (.ok x.swapKeysets),
    getKeysetEvent x.mint x.active.id (.ok x.keys), postSwapEvent x.mint x.request r]

theorem mem_trace_iff {x : Posting B} {r : Except CdkError (List BlindSignature)}
    {mint : MintUrl} {q : SwapRequest} {r' : Except CdkError (List BlindSignature)} :
    postSwapEvent mint q r' ∈ x.trace r ↔ mint = x.mint ∧ q = x.request ∧ r' = r := by
  simp only [trace, List.mem_cons, List.not_mem_nil, postSwapEvent_ne_getKeysetsEvent,
    postSwapEvent_ne_getKeysetEvent, postSwapEvent_inj, false_or, or_false]

/-- What the validator makes of the reply to the post. -/
def conclude (C : Cashu B Token) (requirement : PopRequirement B) (x : Posting B) :
    Except CdkError (List BlindSignature) → Except (ValidationError B) (ValidatedPop B)
  | .error e => .error (.ofMintClient (mapCdkErr e))
  | .ok sigs => settle C requirement x.mint sigs x.preMint x.keys

end Posting

/-- The event is a posted swap. -/
def IsPost : Event (MintConnector B) → Prop
  | ⟨(_, .postSwap _), _⟩ => True
  | _ => False

variable [DecidableEq B] (C : Cashu B Token) (random : PreMintRandom) (token : Token)
  (requirement : PopRequirement B)

/-- `PopValidator::validate` over `CdkMintClient`. -/
def validateHttp : Prog (MintConnector B) (Except (ValidationError B) (ValidatedPop B)) :=
  (validate C token requirement).run.interp (CdkMintClient.handler C random)

/-- The validator gets as far as posting the swap `x`. -/
structure Posting.Reached (x : Posting B) : Prop where
  mint_eq : checkToken C token requirement = .ok x.mint
  proofs_eq : checkProofs C token requirement x.keysets = some (.ok x.proofs)
  active_eq : ∃ p ∈ x.proofs.head?, selectKeyset C p.keysetId x.swapKeysets = .ok x.active
  preMint_eq : prepare C random x.active x.keys x.proofs = some (.ok x.preMint)

/-- The runs of the validator over the HTTP mint client. -/
inductive HttpRun : List (Event (MintConnector B)) →
    Except (ValidationError B) (ValidatedPop B) → Prop
  | badToken {e : ValidationError B} (he : checkToken C token requirement = .error e) :
    HttpRun [] (.error e)
  | keysetsFailed {mint : MintUrl} {e : CdkError}
      (hm : checkToken C token requirement = .ok mint) :
    HttpRun [getKeysetsEvent mint (.error e)] (.error (.ofMintClient (mapCdkErr e)))
  | badProofs {mint : MintUrl} {keysets : List (KeySetInfo B)} {e : ValidationError B}
      (hm : checkToken C token requirement = .ok mint)
      (he : checkProofs C token requirement keysets = some (.error e)) :
    HttpRun [getKeysetsEvent mint (.ok keysets)] (.error e)
  | swapRun {mint : MintUrl} {keysets : List (KeySetInfo B)} {proofs : Proofs}
      {t : List (Event (MintConnector B))} {r : Except MintClientError Proofs}
      (hm : checkToken C token requirement = .ok mint)
      (hp : checkProofs C token requirement keysets = some (.ok proofs))
      (hs : SwapRun C random mint proofs t r) :
    HttpRun (getKeysetsEvent mint (.ok keysets) :: t)
      (r.mapError .ofMintClient >>= receive C requirement mint)

variable {C random token requirement} {t : List (Event (MintConnector B))}

theorem runs_handler_keysets_iff {mint : MintUrl}
    {r : Except MintClientError (List (KeySetInfo B))} :
    Runs (handler C random (.keysets mint)) t r ↔
      ∃ r', t = [getKeysetsEvent mint r'] ∧ r'.mapError mapCdkErr = r :=
  keysets_runs_iff

theorem runs_handler_swap_iff {mint : MintUrl} {proofs : Proofs}
    {r : Except MintClientError Proofs} :
    Runs (handler C random (.swap mint proofs)) t r ↔ SwapRun C random mint proofs t r :=
  swap_runs_iff

theorem validateHttp_runs_iff {r : Except (ValidationError B) (ValidatedPop B)} :
    Runs (validateHttp C random token requirement) t r ↔
      HttpRun C random token requirement t r := by
  simp only [validateHttp, runs_interp_iff, validate_runs_iff]
  constructor
  · rintro ⟨s, he | hm | ⟨hm, he⟩ | ⟨hm, hp⟩ | ⟨hm, hp⟩, h⟩
    · obtain rfl := implements_nil_iff.1 h
      exact .badToken he
    · obtain ⟨_, _, rfl, h₁, h₂⟩ := implements_cons_iff.1 h
      obtain ⟨r', rfl, hr⟩ := runs_handler_keysets_iff.1 h₁
      obtain rfl := implements_nil_iff.1 h₂
      obtain ⟨e', rfl, rfl⟩ := mapError_eq_error_iff.1 hr
      exact .keysetsFailed hm
    · obtain ⟨_, _, rfl, h₁, h₂⟩ := implements_cons_iff.1 h
      obtain ⟨r', rfl, hr⟩ := runs_handler_keysets_iff.1 h₁
      obtain rfl := implements_nil_iff.1 h₂
      obtain rfl := mapError_eq_ok_iff.1 hr
      exact .badProofs hm he
    all_goals
      obtain ⟨_, _, rfl, h₁, h₂⟩ := implements_cons_iff.1 h
      obtain ⟨r', rfl, hr⟩ := runs_handler_keysets_iff.1 h₁
      obtain rfl := mapError_eq_ok_iff.1 hr
      obtain ⟨_, _, rfl, h₁, h₂⟩ := implements_cons_iff.1 h₂
      obtain rfl := implements_nil_iff.1 h₂
      rw [List.append_nil]
      exact .swapRun hm hp (runs_handler_swap_iff.1 h₁)
  · have hkeysets {mint : MintUrl} {r : Except CdkError (List (KeySetInfo B))}
        {r' : Except MintClientError (List (KeySetInfo B))} {s : List (Event (MintClient B))}
        {t : List (Event (MintConnector B))} (hr : r.mapError mapCdkErr = r')
        (h : Implements (handler C random) s t) :
        Implements (handler C random) (keysetsEvent mint r' :: s) (getKeysetsEvent mint r :: t) :=
      implements_cons_iff.2 ⟨[_], t, rfl, runs_handler_keysets_iff.2 ⟨r, rfl, hr⟩, h⟩
    have hswap {mint : MintUrl} {proofs : Proofs} {r : Except MintClientError Proofs}
        {t : List (Event (MintConnector B))} (h : SwapRun C random mint proofs t r) :
        Implements (handler C random) [swapEvent mint proofs r] t :=
      implements_cons_iff.2 ⟨t, [], (List.append_nil t).symm, runs_handler_swap_iff.2 h, .nil⟩
    rintro (he | hm | ⟨hm, he⟩ | @⟨_, _, _, _, e | _, hm, hp, hs⟩)
    · exact ⟨_, .badToken he, .nil⟩
    · exact ⟨_, .keysetsFailed hm, hkeysets rfl .nil⟩
    · exact ⟨_, .badProofs hm he, hkeysets rfl .nil⟩
    · exact ⟨_, .swapFailed hm hp, hkeysets rfl (hswap hs)⟩
    · exact ⟨_, .swapped hm hp, hkeysets rfl (hswap hs)⟩

/-- The ways in which the validator panics over the HTTP mint client: at the proofs of the token, on the
keysets that the mint has reported, and at the outputs of the swap, on the keys that it has reported. -/
inductive HttpPanic (C : Cashu B Token) (random : PreMintRandom) (token : Token)
    (requirement : PopRequirement B) : List (Event (MintConnector B)) → Prop
  | proofs {mint : MintUrl} {keysets : List (KeySetInfo B)}
      (hm : checkToken C token requirement = .ok mint) (hp : C.proofs token keysets = none) :
    HttpPanic C random token requirement [getKeysetsEvent mint (.ok keysets)]
  | random {mint : MintUrl} {keysets keysets' : List (KeySetInfo B)} {p : Proof} {ps : Proofs}
      {active : KeySetInfo B} {keys : Keys} (hm : checkToken C token requirement = .ok mint)
      (hp : checkProofs C token requirement keysets = some (.ok (p :: ps)))
      (hs : selectKeyset C p.keysetId keysets' = .ok active)
      (hq : prepare C random active keys (p :: ps) = none) :
    HttpPanic C random token requirement [getKeysetsEvent mint (.ok keysets),
      getKeysetsEvent mint (.ok keysets'), getKeysetEvent mint active.id (.ok keys)]

/-- The validator posts no swap before it panics. -/
theorem HttpPanic.no_post (h : HttpPanic C random token requirement t) : ¬ ∃ e ∈ t, IsPost e := by
  rintro ⟨e, hmem, he⟩
  cases h with
  | proofs hm hp =>
    rw [List.mem_singleton.1 hmem] at he
    exact he
  | random hm hp hs hq =>
    simp only [List.mem_cons, List.not_mem_nil, or_false] at hmem
    rcases hmem with rfl | rfl | rfl
    · exact he
    · exact he
    · exact he

/-- Before the validator has a swap made it has had the keysets and has checked the proofs. -/
theorem checks_of_path {mint : MintUrl} {proofs : Proofs} {s : List (Event (MintClient B))}
    {k : Except MintClientError Proofs →
      Prog (MintClient B) (Except (ValidationError B) (ValidatedPop B))}
    (h : Path (validate C token requirement).run s (@Prog.call (MintClient B) _ (.swap mint proofs) k)) :
    ∃ keysets, checkToken C token requirement = .ok mint ∧
      checkProofs C token requirement keysets = some (.ok proofs) ∧
        s = [keysetsEvent mint (.ok keysets)] := by
  obtain ⟨t', x, hx⟩ := Interaction.exists_ends (k (.ok []))
  have hends := (h.snoc (.ok [])).ends_append hx
  rw [List.append_assoc] at hends
  change Ends _ (s ++ swapEvent mint proofs (.ok []) :: t') x at hends
  generalize ht : s ++ swapEvent mint proofs (.ok []) :: t' = t at hends
  rcases x with _ | r
  · obtain ⟨_, _, -, -, rfl⟩ := validate_panics_iff.1 hends
    rcases s with _ | ⟨y, s⟩ <;> simp [swapEvent_ne_keysetsEvent] at ht
  · rcases validate_runs_iff.1 hends with he | hm | ⟨hm, he⟩ | ⟨hm, hp⟩ | ⟨hm, hp⟩
    · simp at ht
    · rcases s with _ | ⟨y, s⟩ <;> simp [swapEvent_ne_keysetsEvent] at ht
    · rcases s with _ | ⟨y, s⟩ <;> simp [swapEvent_ne_keysetsEvent] at ht
    all_goals
      rcases s with _ | ⟨y, _ | ⟨z, s⟩⟩
      · simp [swapEvent_ne_keysetsEvent] at ht
      · simp only [List.cons_append, List.nil_append, List.cons.injEq, swapEvent_inj] at ht
        obtain ⟨rfl, ⟨rfl, rfl, -⟩, -⟩ := ht
        exact ⟨_, hm, hp, rfl⟩
      · simp at ht

theorem implements_keysets_iff {mint : MintUrl} {keysets : List (KeySetInfo B)} :
    Implements (handler C random) [keysetsEvent mint (.ok keysets)] t ↔
      t = [getKeysetsEvent mint (.ok keysets)] := by
  constructor
  · intro h
    obtain ⟨_, _, rfl, h₁, h₂⟩ := implements_cons_iff.1 h
    obtain ⟨r', rfl, hr⟩ := runs_handler_keysets_iff.1 h₁
    obtain rfl := implements_nil_iff.1 h₂
    obtain rfl := mapError_eq_ok_iff.1 hr
    rfl
  · rintro rfl
    exact implements_cons_iff.2 ⟨[_], [], rfl, runs_handler_keysets_iff.2 ⟨_, rfl, rfl⟩, .nil⟩

theorem validateHttp_panics_iff :
    Panics (validateHttp C random token requirement) t ↔ HttpPanic C random token requirement t := by
  constructor
  · intro h
    rcases panics_interp h with ⟨s, hs, himpl⟩ | ⟨s, e, k, t₁, t₂, rfl, hpath, himpl, he⟩
    · obtain ⟨mint, keysets, hm, hnone, rfl⟩ := validate_panics_iff.1 hs
      rw [implements_keysets_iff.1 himpl]
      exact .proofs hm hnone
    · rcases e with mint | ⟨mint, proofs⟩
      · exact absurd he not_panics_callExcept
      · obtain ⟨keysets, hm, hp, rfl⟩ := checks_of_path hpath
        obtain ⟨p, hhead, keysets', active, keys, hs, hq, rfl⟩ := swap_panics_iff.1 he
        obtain ⟨ps, rfl⟩ := List.head?_eq_some_iff.1 hhead
        rw [implements_keysets_iff.1 himpl]
        exact .random hm hp hs hq
  · rintro (⟨hm, hnone⟩ | ⟨hm, hp, hs, hq⟩)
    · have hpath := (validate_panics_iff.2 ⟨_, _, hm, hnone, rfl⟩).path
      exact hpath.panics_interp (implements_keysets_iff.2 rfl) .panic
    · have hrun := validate_runs_iff.2 (.swapFailed hm hp (e := .unreachable ""))
      obtain ⟨k, hpath⟩ := Runs.exists_path (t := [_]) hrun
      exact hpath.panics_interp (implements_keysets_iff.2 rfl)
        (panics_bind_iff.2 (.inl (swap_panics_iff.2 ⟨_, rfl, _, _, _, hs, hq, rfl⟩)))

/-- A run that posts a swap makes four calls and ends with what is made of the reply to the post. -/
theorem HttpRun.exists_posting_of_isPost {r : Except (ValidationError B) (ValidatedPop B)}
    (h : HttpRun C random token requirement t r) (hpost : ∃ e ∈ t, IsPost e) :
    ∃ (x : Posting B) (reply : Except CdkError (List BlindSignature)),
      x.Reached C random token requirement ∧ t = x.trace reply ∧
        r = x.conclude C requirement reply := by
  have hkeysets {mint : MintUrl} {r : Except CdkError (List (KeySetInfo B))} :
      ¬ IsPost (getKeysetsEvent mint r) := id
  have hkeyset {mint : MintUrl} {id : Id} {r : Except CdkError Keys} :
      ¬ IsPost (getKeysetEvent mint id r : Event (MintConnector B)) := fun h => h
  rcases h with he | hm | ⟨hm, he⟩ | @⟨mint, keysets, _, _, _, hm, hp, hs⟩
  · simp at hpost
  · simp [hkeysets] at hpost
  · simp [hkeysets] at hpost
  rcases hs with _ | _ | _ | _ | _ | @⟨p, ps, keysets', active, keys, preMint, e, hs, hq⟩ |
    @⟨p, ps, keysets', active, keys, preMint, sigs, hs, hq⟩
  · simp [hkeysets] at hpost
  · simp [hkeysets] at hpost
  · simp [hkeysets] at hpost
  · simp [hkeysets, hkeyset] at hpost
  · simp [hkeysets, hkeyset] at hpost
  · exact ⟨⟨mint, keysets, p :: ps, keysets', active, keys, preMint⟩, .error e,
      ⟨hm, hp, ⟨p, rfl, hs⟩, hq⟩, rfl, rfl⟩
  · exact ⟨⟨mint, keysets, p :: ps, keysets', active, keys, preMint⟩, .ok sigs,
      ⟨hm, hp, ⟨p, rfl, hs⟩, hq⟩, rfl, rfl⟩

/-- Every posted swap with every reply is a run. -/
theorem Posting.Reached.httpRun {x : Posting B} (h : x.Reached C random token requirement)
    (reply : Except CdkError (List BlindSignature)) :
    HttpRun C random token requirement (x.trace reply) (x.conclude C requirement reply) := by
  obtain ⟨mint, keysets, proofs, keysets', active, keys, preMint⟩ := x
  obtain ⟨hm, hp, ⟨p, hhead, hs⟩, hq⟩ := h
  obtain ⟨ps, rfl⟩ := List.head?_eq_some_iff.1 hhead
  cases reply with
  | error e => exact .swapRun hm hp (.postFailed hs hq)
  | ok sigs => exact .swapRun hm hp (.posted hs hq)

/-- The calls of a run tell which swap it posts, with the secrets of the outputs. -/
theorem Posting.Reached.eq_of_trace_eq {x y : Posting B} {reply : Except CdkError (List BlindSignature)}
    (hx : x.Reached C random token requirement) (hy : y.Reached C random token requirement)
    (h : x.trace reply = y.trace reply) : x = y := by
  obtain ⟨mint, keysets, proofs, keysets', active, keys, preMint⟩ := x
  obtain ⟨mint', ks, ps, ks', active', keys', preMint'⟩ := y
  obtain ⟨-, -, ⟨p, hp, hactive⟩, hpre⟩ := hx
  obtain ⟨-, -, ⟨p', hp', hactive'⟩, hpre'⟩ := hy
  simp only [Posting.trace, List.cons.injEq, getKeysetsEvent_inj, getKeysetEvent_inj,
    postSwapEvent_inj, Except.ok.injEq, and_true, Posting.request] at h
  obtain ⟨⟨rfl, rfl⟩, ⟨-, rfl⟩, ⟨-, -, rfl⟩, -, hq⟩ := h
  obtain rfl : proofs = ps := congrArg SwapRequest.inputs hq
  obtain rfl := Option.mem_unique hp hp'
  obtain rfl := Except.ok.inj (hactive.symm.trans hactive')
  obtain rfl := Except.ok.inj (Option.some.inj (hpre.symm.trans hpre'))
  rfl

/-- A run in which a swap is posted and the mint replies with signatures. -/
theorem exists_posting {mint : MintUrl} {request : SwapRequest} {sigs : List BlindSignature}
    {r : Except (ValidationError B) (ValidatedPop B)} (h : HttpRun C random token requirement t r)
    (hmem : postSwapEvent mint request (.ok sigs) ∈ t) :
    ∃ x : Posting B, x.Reached C random token requirement ∧ x.mint = mint ∧ x.request = request ∧
      t = x.trace (.ok sigs) ∧ r = settle C requirement x.mint sigs x.preMint x.keys := by
  obtain ⟨x, reply, hx, rfl, rfl⟩ := h.exists_posting_of_isPost ⟨_, hmem, trivial⟩
  obtain ⟨rfl, rfl, rfl⟩ := Posting.mem_trace_iff.1 hmem
  exact ⟨x, hx, rfl, rfl, rfl, rfl⟩

/-- A validated credential comes from a posted swap. -/
theorem exists_posting_of_ok {v : ValidatedPop B}
    (h : HttpRun C random token requirement t (.ok v)) :
    ∃ (x : Posting B) (sigs : List BlindSignature), x.Reached C random token requirement ∧
      t = x.trace (.ok sigs) ∧ settle C requirement x.mint sigs x.preMint x.keys = .ok v := by
  suffices ∃ mint request sigs, postSwapEvent mint request (.ok sigs) ∈ t by
    obtain ⟨mint, request, sigs, hmem⟩ := this
    obtain ⟨x, hx, -, -, ht, hv⟩ := exists_posting h hmem
    exact ⟨x, sigs, hx, ht, hv.symm⟩
  generalize hr : Except.ok v = r at h
  rcases h with he | hm | ⟨hm, he⟩ | @⟨mint, keysets, proofs, t, r, hm, hp, hs⟩
  · cases hr
  · cases hr
  · cases hr
  rcases r with e | newProofs
  · cases hr
  generalize hr' : Except.ok newProofs = r' at hs
  rcases hs with _ | _ | _ | _ | _ | _ | @⟨p, ps, keysets', active, keys, preMint, sigs', hs, hq⟩ <;>
    try cases hr'
  exact ⟨mint, swapRequest (p :: ps) preMint, sigs', by simp⟩

/-! ## The middleware -/

variable {X : Type} (C random requirement) (uuid : Uuid) (req : Request B X)

/-- `require_pop` over `CdkMintClient`. -/
def requirePopHttp : Prog ((MintConnector B).sum (Next B X)) Response :=
  (requirePop C requirement uuid req).interp (.implementInl (CdkMintClient.handler C random))

theorem requirePopHttp_eq : requirePopHttp C random requirement uuid req =
    gate C requirement uuid req fun token => validateHttp C random token requirement := by
  rw [requirePopHttp, requirePop_eq, gate, gate]
  rcases readToken C req with reason | token
  · rfl
  · dsimp only
    rw [Prog.interp_bind, Prog.interp_implementInl_inl]
    refine bind_congr fun r => ?_
    rcases r with e | v
    · rfl
    · rfl

variable {C random requirement uuid req}

theorem requirePopHttp_runs_iff {t : List (Event ((MintConnector B).sum (Next B X)))}
    {resp : Response} :
    Runs (requirePopHttp C random requirement uuid req) t resp ↔
      GateRun C requirement uuid req (fun token => HttpRun C random token requirement) t resp := by
  rw [requirePopHttp_eq]
  exact gate_runs_iff fun _ _ _ => validateHttp_runs_iff

theorem requirePopHttp_panics_iff {t : List (Event ((MintConnector B).sum (Next B X)))} :
    Panics (requirePopHttp C random requirement uuid req) t ↔ ∃ token s,
      readToken C req = .ok token ∧ HttpPanic C random token requirement s ∧ t = s.map .inl := by
  simp only [requirePopHttp_eq, gate_panics_iff, validateHttp_panics_iff]

end CdkPopVerifier
