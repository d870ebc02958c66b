import CdkPopVerifier.HonestMint
import CdkPopVerifier.Retry

/-!
# Clients that try again

The middleware answers 503 when the mint could not be reached, so that a client can send the same
token again.  A client that does so is served once, with the whole value of its token, as soon as one
of its attempts gets through to an honest mint, as long as no reply to a posted swap is lost.  That is
one of two ways to pay without being served; the other one is a mint whose signatures do not settle.
-/

namespace CdkPopVerifier

open Fallible Interaction PopValidator CdkMintClient

section

variable {B Token X σ : Type} (C : Cashu B Token) (requirement : PopRequirement B)
  (req : Request B X) (M : Mints B σ) (next : Request B X → Response)

/-- The call or its reply is lost, with this error. -/
def Delivery.Loses (d : Delivery) (e : CdkError) : Prop := d = .requestLost e ∨ d = .replyLost e

variable {C requirement req M next} {s : σ}

theorem Delivery.eq_delivered_or (d : Delivery) : d = .delivered ∨ ∃ e, d.Loses e := by
  cases d with
  | requestLost e => exact .inr ⟨e, .inl rfl⟩
  | replyLost e => exact .inr ⟨e, .inr rfl⟩
  | delivered => exact .inl rfl

variable {net : ℕ → Delivery} {i : ℕ} {mint : MintUrl} {t : List (Event (MintConnector B))}
  {o : σ × ℕ}

variable [DecidableEq B] {random : PreMintRandom} {uuid : Uuid} {token : Token}

variable {keysets : List (KeySetInfo B)} {keysOf : Id → Keys} {valid : Proof → Prop}
  {sign : BlindedMessage → PublicKey} {proofs : Proofs}

/-- The swap is posted and accepted, the reply arrives, and its signatures do not settle. -/
def UnsettledSwap (C : Cashu B Token) (random : PreMintRandom) (requirement : PopRequirement B)
    (req : Request B X) (M : Mints B σ) (net : ℕ → Delivery) (s : σ) : Prop :=
  (net 0 = .delivered ∧ net 1 = .delivered ∧ net 2 = .delivered ∧ net 3 = .delivered) ∧
    ∃ (token : Token) (x : Posting B) (sigs : List BlindSignature),
      readToken C req = .ok token ∧ x.Reached C random token requirement ∧
        M.keysets s x.mint = .ok x.keysets ∧ M.keysets s x.mint = .ok x.swapKeysets ∧
        M.keys s x.mint x.active.id = .ok x.keys ∧ (M.swap s x.mint x.request).1 = .ok sigs ∧
        ¬ Settles C x.keys x.preMint sigs

/-- Something is spent that was not. -/
def Spends (M : Mints B σ) (s s' : σ) : Prop := ∃ m x, M.spent s' m x ∧ ¬ M.spent s m x

omit [DecidableEq B] in
theorem not_spends_self : ¬ Spends M s s := fun ⟨_, _, h, hn⟩ => hn h

/-- An accepted swap spends something. -/
theorem spends_of_accepted {x : Posting B} (hx : x.Reached C random token requirement)
    {sigs : List BlindSignature} (h : (M.swap s x.mint x.request).1 = .ok sigs) :
    Spends M s (M.swap s x.mint x.request).2 := by
  obtain ⟨-, hne, -, -⟩ := checkProofs_eq_ok_iff.1 hx.proofs_eq
  obtain ⟨p, hp⟩ := List.exists_mem_of_ne_nil _ hne
  refine ⟨x.mint, p.secret, (M.spent_iff_of_accepted h _ _).2 (.inr ⟨rfl, ?_⟩),
    M.unspent_of_accepted h p hp⟩
  exact List.mem_map_of_mem hp

/-- A failed run of the validator that spends something: the reply to the accepted swap is lost, or its
signatures do not settle. -/
theorem loses_or_unsettled_of_spends {e : ValidationError B} {o : σ × ℕ}
    (ht : readToken C req = .ok token) (hv : HttpRun C random token requirement t (.error e))
    (hsteps : (M.world net).Steps (s, 0) t o) (hspends : Spends M s o.1) :
    LosesAcceptedSwap C random requirement req M net s ∨
      UnsettledSwap C random requirement req M net s := by
  by_cases hpost : ∃ e ∈ t, IsPost e
  · obtain ⟨x, reply, hx, rfl, hr⟩ := hv.exists_posting_of_isPost hpost
    obtain ⟨⟨h0, hk⟩, ⟨h1, hk'⟩, ⟨h2, hkeys⟩, hreply, rfl⟩ := Mints.steps_trace_iff.1 hsteps
    rcases @Mints.exchange_snd_postSwap_eq_or _ _ M s (net 3) x.mint x.request with
      hs | ⟨sigs, hswap, ⟨e', h3⟩ | hsigs⟩
    · rw [hs] at hspends
      exact absurd hspends not_spends_self
    · exact .inl ⟨⟨h0, h1, h2, e', h3⟩, token, x, sigs, ht, hx, hk, hk', hkeys, hswap⟩
    · rw [hreply, hsigs] at hr
      have h3 : net 3 = .delivered := by
        rcases (net 3).eq_delivered_or with hd | ⟨e', hd | hd⟩
        · exact hd
        · rw [hd] at hsigs
          cases hsigs
        · rw [hd] at hsigs
          cases hsigs
      refine .inr ⟨⟨h0, h1, h2, h3⟩, token, x, sigs, ht, hx, hk, hk', hkeys, hswap, fun hs => ?_⟩
      obtain ⟨v, hv⟩ := (@exists_settle_eq_ok_iff _ _ C requirement x.mint _ _ _).2 hs
      cases hr.trans hv
  · rw [Mints.eq_of_steps_of_no_post hsteps hpost] at hspends
    exact absurd hspends not_spends_self

/-- The proofs of a token are spent without the handler being called in exactly two ways: the reply to
the accepted swap is lost, or its signatures do not settle. -/
theorem spends_unserved_iff :
    (rights (serve C random requirement uuid req M net next s).trace = [] ∧
        Spends M s (serve C random requirement uuid req M net next s).final.1) ↔
      LosesAcceptedSwap C random requirement req M net s ∨
        UnsettledSwap C random requirement req M net s := by
  constructor
  · rintro ⟨hno, hspends⟩
    have hends := @ends_serve _ _ _ _ C random requirement uuid req M net next s _
    have hsteps := @steps_serve _ _ _ _ C random requirement uuid req M net next s _
    generalize serve C random requirement uuid req M net next s = o at *
    obtain ⟨_ | resp, trace, final⟩ := o
    · obtain ⟨_, t, -, hpanic, rfl⟩ := requirePopHttp_panics_iff.1 hends
      have hfinal := Mints.eq_of_steps_of_no_post (World.beside_steps_map_inl_iff.1 hsteps)
        hpanic.no_post
      dsimp only at hspends hfinal
      rw [hfinal] at hspends
      exact absurd hspends not_spends_self
    have hrun : Runs (requirePopHttp C random requirement uuid req) trace resp := hends
    dsimp only at *
    rcases requirePopHttp_runs_iff.1 hrun with _ | ⟨ht, hv⟩ | ⟨ht, hv⟩
    · rw [World.steps_nil_iff] at hsteps
      rw [hsteps] at hspends
      exact absurd hspends not_spends_self
    · exact loses_or_unsettled_of_spends ht hv (World.beside_steps_map_inl_iff.1 hsteps) hspends
    · simp at hno
  · rintro (⟨⟨h0, h1, h2, e, h3⟩, token, x, sigs, ht, hx, hk, hk', hkeys, hswap⟩ |
      ⟨⟨h0, h1, h2, h3⟩, token, x, sigs, ht, hx, hk, hk', hkeys, hswap, hno⟩)
    · have hexchange : M.exchange (net 3) s (x.mint, .postSwap x.request) =
          (.error e, (M.swap s x.mint x.request).2) := by
        rw [h3]
        rfl
      rw [serve_eq_of_conclude_error ht hx ⟨h0, hk⟩ ⟨h1, hk'⟩ ⟨h2, hkeys⟩ hexchange rfl]
      exact ⟨rights_map_inl _, spends_of_accepted hx hswap⟩
    · rcases he : settle C requirement x.mint sigs x.preMint x.keys with e | v
      · have hexchange : M.exchange (net 3) s (x.mint, .postSwap x.request) =
            (.ok sigs, (M.swap s x.mint x.request).2) := by
          rw [h3, ← hswap]
          rfl
        rw [serve_eq_of_conclude_error ht hx ⟨h0, hk⟩ ⟨h1, hk'⟩ ⟨h2, hkeys⟩ hexchange he]
        exact ⟨rights_map_inl _, spends_of_accepted hx hswap⟩
      · exact absurd (exists_settle_eq_ok_iff.1 ⟨v, he⟩) hno

end

namespace Reference

end Reference

end CdkPopVerifier
