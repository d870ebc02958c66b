import CdkPopVerifier.HttpRuns

/-!
# Mints with a state, behind a network

`Mints` is what the clients of a mint rely on: a swap that is refused changes nothing, and a swap that
is accepted spends its inputs, none of which was spent before.  Each call over the network is lost on
the way to the mint, loses its reply, or is delivered.  This is a world in which the validator runs
and, beside a protected handler, the middleware.
-/

namespace CdkPopVerifier

open Interaction

variable {B σ : Type}

/-- Mints, by their replies in each state and the secrets that are spent at each of them. -/
structure Mints (B σ : Type) where
  keysets : σ → MintUrl → Except CdkError (List (KeySetInfo B))
  keys : σ → MintUrl → Id → Except CdkError Keys
  swap : σ → MintUrl → SwapRequest → Except CdkError (List BlindSignature) × σ
  spent : σ → MintUrl → Secret → Prop
  eq_of_refused : ∀ {s m q e}, (swap s m q).1 = .error e → (swap s m q).2 = s
  unspent_of_accepted : ∀ {s m q sigs}, (swap s m q).1 = .ok sigs →
    ∀ p ∈ q.inputs, ¬ spent s m p.secret
  spent_iff_of_accepted : ∀ {s m q sigs}, (swap s m q).1 = .ok sigs →
    ∀ m' x, spent (swap s m q).2 m' x ↔ spent s m' x ∨ m' = m ∧ x ∈ q.inputs.map Proof.secret

/-- What the network does with a call: the request is lost, or the reply, or neither. -/
inductive Delivery where
  | requestLost (e : CdkError)
  | replyLost (e : CdkError)
  | delivered
  deriving DecidableEq

namespace Mints

/-- The reply to a call that reaches the mint, and the next state. -/
def answer (M : Mints B σ) (s : σ) :
    (e : (MintConnector B).Op) → (MintConnector B).Reply e × σ
  | (m, .getMintKeysets) => (M.keysets s m, s)
  | (m, .getMintKeyset id) => (M.keys s m id, s)
  | (m, .postSwap q) => M.swap s m q

/-- The reply of a failed call. -/
def failure (x : CdkError) : (e : (MintConnector B).Op) → (MintConnector B).Reply e
  | (_, .getMintKeysets) => .error x
  | (_, .getMintKeyset _) => .error x
  | (_, .postSwap _) => .error x

/-- A call over the network: the reply that the client gets, and the next state of the mints. -/
def exchange (M : Mints B σ) (d : Delivery) (s : σ) (e : (MintConnector B).Op) :
    (MintConnector B).Reply e × σ :=
  match d with
  | .requestLost x => (failure x e, s)
  | .replyLost x => (failure x e, (M.answer s e).2)
  | .delivered => M.answer s e

/-- The mints, behind a network that does `net i` with the `i`-th call. -/
def world (M : Mints B σ) (net : ℕ → Delivery) : World (MintConnector B) (σ × ℕ) :=
  fun (s, i) e => ((M.exchange (net i) s e).1, (M.exchange (net i) s e).2, i + 1)

variable {M : Mints B σ} {s : σ} {d : Delivery} {mint : MintUrl}

theorem exchange_getMintKeysets_eq_ok_iff {keysets : List (KeySetInfo B)} :
    .ok keysets = (M.exchange d s (mint, .getMintKeysets)).1 ↔
      d = .delivered ∧ M.keysets s mint = .ok keysets := by
  cases d <;> simp [exchange, answer, failure, eq_comm]

theorem exchange_getMintKeyset_eq_ok_iff {id : Id} {keys : Keys} :
    .ok keys = (M.exchange d s (mint, .getMintKeyset id)).1 ↔
      d = .delivered ∧ M.keys s mint id = .ok keys := by
  cases d <;> simp [exchange, answer, failure, eq_comm]

theorem exchange_snd_getMintKeysets : (M.exchange d s (mint, .getMintKeysets)).2 = s := by
  cases d <;> rfl

theorem exchange_snd_getMintKeyset {id : Id} :
    (M.exchange d s (mint, .getMintKeyset id)).2 = s := by
  cases d <;> rfl

/-- A post leaves the mints as they were, unless the mint accepts the swap; then the reply is lost or
it is that of the mint. -/
theorem exchange_snd_postSwap_eq_or {q : SwapRequest} :
    (M.exchange d s (mint, .postSwap q)).2 = s ∨ ∃ sigs, (M.swap s mint q).1 = .ok sigs ∧
      ((∃ e, d = .replyLost e) ∨ (M.exchange d s (mint, .postSwap q)).1 = .ok sigs) := by
  rcases hswap : (M.swap s mint q).1 with e | sigs
  · have hs := M.eq_of_refused hswap
    cases d with
    | requestLost e' => exact .inl rfl
    | replyLost e' => exact .inl hs
    | delivered => exact .inl hs
  · cases d with
    | requestLost e => exact .inl rfl
    | replyLost e => exact .inr ⟨sigs, rfl, .inl ⟨e, rfl⟩⟩
    | delivered => exact .inr ⟨sigs, rfl, .inr hswap⟩

variable {net : ℕ → Delivery} {i : ℕ} {o : σ × ℕ}

theorem steps_cons_iff {e : (MintConnector B).Op} {r : (MintConnector B).Reply e}
    {t : List (Event (MintConnector B))} :
    (M.world net).Steps (s, i) (⟨e, r⟩ :: t) o ↔ r = (M.exchange (net i) s e).1 ∧
      (M.world net).Steps ((M.exchange (net i) s e).2, i + 1) t o :=
  World.steps_cons_iff

/-- Only a posted swap changes the state of the mints. -/
theorem eq_of_steps_of_no_post {t : List (Event (MintConnector B))}
    (h : (M.world net).Steps (s, i) t o) (hno : ¬ ∃ e ∈ t, IsPost e) : o.1 = s := by
  induction t generalizing i with
  | nil =>
    rw [World.steps_nil_iff] at h
    rw [h]
  | cons x t ih =>
    simp only [List.mem_cons, exists_eq_or_imp, not_or] at hno
    obtain ⟨⟨m, call⟩, r⟩ := x
    rw [steps_cons_iff] at h
    cases call with
    | getMintKeysets =>
      rw [exchange_snd_getMintKeysets] at h
      exact ih h.2 hno.2
    | getMintKeyset id =>
      rw [exchange_snd_getMintKeyset] at h
      exact ih h.2 hno.2
    | postSwap q => exact absurd trivial hno.1

/-- The steps of a run that posts a swap: the calls before the post are delivered. -/
theorem steps_trace_iff {x : Posting B} {r : Except CdkError (List BlindSignature)} :
    (M.world net).Steps (s, 0) (x.trace r) o ↔
      (net 0 = .delivered ∧ M.keysets s x.mint = .ok x.keysets) ∧
      (net 1 = .delivered ∧ M.keysets s x.mint = .ok x.swapKeysets) ∧
      (net 2 = .delivered ∧ M.keys s x.mint x.active.id = .ok x.keys) ∧
      r = (M.exchange (net 3) s (x.mint, .postSwap x.request)).1 ∧
      o = ((M.exchange (net 3) s (x.mint, .postSwap x.request)).2, 4) := by
  refine steps_cons_iff.trans (and_congr exchange_getMintKeysets_eq_ok_iff ?_)
  rw [exchange_snd_getMintKeysets]
  refine steps_cons_iff.trans (and_congr exchange_getMintKeysets_eq_ok_iff ?_)
  rw [exchange_snd_getMintKeysets]
  refine steps_cons_iff.trans (and_congr exchange_getMintKeyset_eq_ok_iff ?_)
  rw [exchange_snd_getMintKeyset]
  exact steps_cons_iff.trans (and_congr_right' World.steps_nil_iff)

end Mints

end CdkPopVerifier
