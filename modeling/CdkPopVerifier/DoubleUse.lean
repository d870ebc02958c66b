import CdkPopVerifier.Gate
import CdkPopVerifier.Lib.Concurrent
import Mathlib.Algebra.BigOperators.Ring.Finset
import Mathlib.Algebra.Order.Group.Multiset

/-!
# Concurrent requests

Any number of requests run through `requirePop` side by side, in any interleaving of their calls.  The
middleware keeps no record of what it has seen; what keeps two requests from using the same proof is
that the swaps of a mint are atomic.  The spent proofs of the mints pay for every swap that is
answered with success, and a handler is called only behind such a swap.
-/

namespace CdkPopVerifier

open Interaction

section

variable {B Token X H ι : Type} (C : Cashu B Token) (requirement : PopRequirement B)
  (host : MintUrl → H)

/-! ## Mints with atomic swaps -/

/-- What identifies a proof: its mint and its secret. -/
def identity (x : H × Proof) : H × Secret := (x.1, x.2.secret)

/-- The inputs of a swap, at the mint behind the url. -/
def inputsAt (mint : MintUrl) (proofs : Proofs) : Multiset (H × Proof) :=
  (proofs.map fun p => (host mint, p) : List (H × Proof))

/-- The exact value of some proofs. -/
def totalValue (s : Multiset (H × Proof)) : ℕ := (s.map fun x => x.2.amount.toNat).sum

/-- The replies in a state, which is the proofs that are spent at each mint.  A swap is refused, or its
inputs, which are distinct and not spent, become spent; the reply to it can still be an error. -/
inductive MintReply : Multiset (H × Proof) → (e : ((MintClient B).sum (Next B X)).Op) →
    ((MintClient B).sum (Next B X)).Reply e → Multiset (H × Proof) → Prop
  | keysets {s : Multiset (H × Proof)} {mint : MintUrl}
    (r : Except MintClientError (List (KeySetInfo B))) :
    MintReply s (.inl (.keysets mint)) r s
  | refused {s : Multiset (H × Proof)} {mint : MintUrl} {proofs : Proofs} (e : MintClientError) :
    MintReply s (.inl (.swap mint proofs)) (.error e) s
  | accepted {s : Multiset (H × Proof)} {mint : MintUrl} {proofs : Proofs}
    (r : Except MintClientError Proofs)
    (h : ((s + inputsAt host mint proofs).map identity).Nodup) :
    MintReply s (.inl (.swap mint proofs)) r (s + inputsAt host mint proofs)
  | handled {s : Multiset (H × Proof)} {req : Request B X} (resp : Response) :
    MintReply s (.inr req) resp s

/-- The mints and the protected handler.  Other clients of the mints spend proofs at any time. -/
def mintEnv : Env ((MintClient B).sum (Next B X)) (Multiset (H × Proof)) where
  reply := MintReply host
  idle s s' := s ≤ s' ∧ (s'.map identity).Nodup

/-- The proofs that a call has taken: the inputs of a swap with a success reply. -/
def taken : Event ((MintClient B).sum (Next B X)) → Multiset (H × Proof)
  | ⟨.inl (.swap mint proofs), r⟩ =>
    match (r : Except MintClientError Proofs) with
    | .ok _ => inputsAt host mint proofs
    | .error _ => 0
  | _ => 0

/-- The number of calls of the handler. -/
def invocations {α : Type} (th : Thread ((MintClient B).sum (Next B X)) α) : ℕ :=
  th.made.countP Sum.isRight

/-- The proofs behind a thread: those taken by its swaps. -/
def behind {α : Type} (th : Thread ((MintClient B).sum (Next B X)) α) : Multiset (H × Proof) :=
  th.cost (taken host)

theorem mintEnv_pays : (mintEnv host : Env ((MintClient B).sum (Next B X)) _).Pays (taken host) id where
  nonneg _ := Multiset.zero_le _
  reply h := by
    cases h with
    | keysets r => exact (add_zero _).le
    | refused e => exact (add_zero _).le
    | @accepted mint proofs r h =>
      rcases r with e | newProofs
      · exact add_le_add_right (Multiset.zero_le _) _
      · exact le_rfl
    | handled resp => exact (add_zero _).le
  idle h := h.1

variable {C requirement host} {uuid : ι → Uuid} {req : ι → Request B X}
  {s : Multiset (H × Proof)} [DecidableEq B] [DecidableEq ι]

/-- The requests, each at the start of the middleware, with some proofs spent already. -/
def requests (C : Cashu B Token) (requirement : PopRequirement B) (uuid : ι → Uuid)
    (req : ι → Request B X) (s : Multiset (H × Proof)) :
    Pool ((MintClient B).sum (Next B X)) Response ι (Multiset (H × Proof)) :=
  .start (fun i => requirePop C requirement (uuid i) (req i)) s

variable {P : Pool ((MintClient B).sum (Next B X)) Response ι (Multiset (H × Proof))}

instance (e : ((MintClient B).sum (Next B X)).Op) :
    Nonempty (((MintClient B).sum (Next B X)).Reply e) :=
  match e with
  | .inl e => nonempty_mintReply e
  | .inr _ => ⟨(⟨0, [], ""⟩ : Response)⟩

/-! ## What is behind a call of the handler -/

/-- The handler is called once, behind a swap of the proofs of a presented token that cover the
required amount. -/
structure Invoked (C : Cashu B Token) (requirement : PopRequirement B) (host : MintUrl → H)
    (req : Request B X) {α : Type} (th : Thread ((MintClient B).sum (Next B X)) α) (token : Token)
    (mint : MintUrl) (keysets : List (KeySetInfo B)) (proofs : Proofs) : Prop where
  once : invocations th = 1
  presents : Presents C requirement req token mint
  covers : Covers C requirement token keysets proofs
  behind_eq : behind host th = inputsAt host mint proofs

omit [DecidableEq B] [DecidableEq ι] in
/-- Once the swap is answered, the proofs that are taken are its inputs. -/
theorem sum_taken_eq {mint : MintUrl} {keysets : List (KeySetInfo B)} {proofs newProofs : Proofs}
    {e : Event (Next B X)} {l t : List (Event ((MintClient B).sum (Next B X)))}
    (hlen : 2 ≤ l.length)
    (h : l ++ t = [.inl (keysetsEvent mint (.ok keysets)),
      .inl (swapEvent mint proofs (.ok newProofs)), .inr e]) :
    (l.map (taken host)).sum = inputsAt host mint proofs := by
  obtain ⟨a, l, rfl⟩ := List.exists_cons_of_length_pos (Nat.zero_lt_of_lt hlen)
  obtain ⟨b, l, rfl⟩ := List.exists_cons_of_length_pos (Nat.lt_of_succ_lt_succ hlen)
  rw [List.cons_append, List.cons_append, List.cons.injEq, List.cons.injEq] at h
  obtain ⟨rfl, rfl, h⟩ := h
  have hl : (l.map (taken host)).sum = 0 := by
    rcases List.append_eq_singleton_iff.1 h with ⟨rfl, -⟩ | ⟨rfl, -⟩
    · rfl
    · exact zero_add 0
  rw [List.map_cons, List.map_cons, List.sum_cons, List.sum_cons, hl]
  exact (zero_add _).trans (add_zero _)

/-- A thread has not called the handler, or it has called it behind a swap. -/
theorem invocations_eq_zero_or (h : Reachable (mintEnv host) (requests C requirement uuid req s) P)
    (i : ι) : invocations (P.thread i) = 0 ∨
      ∃ token mint keysets proofs,
        Invoked C requirement host (req i) (P.thread i) token mint keysets proofs := by
  obtain ⟨t, x, hends, hmade⟩ := h.exists_ends i
  by_cases hcall : invocations (P.thread i) = 0
  · exact .inl hcall
  · right
    obtain ⟨c, hc, hright⟩ := List.countP_pos_iff.1 (Nat.pos_of_ne_zero hcall)
    obtain ⟨req', rfl⟩ := Sum.isRight_iff.1 hright
    obtain ⟨⟨_, r⟩, he, rfl⟩ := List.mem_map.1 (hmade.subset hc)
    obtain ⟨resp, -, hruns⟩ := exists_runs_of_inr_mem (e := ⟨req', r⟩) hends he
    obtain ⟨token, mint, keysets, proofs, newProofs, v, hp, hc, -, ht⟩ :=
      exists_of_inr_mem (e := ⟨req', r⟩) hruns he
    have hall : (P.thread i).made =
        [.inl (.keysets mint), .inl (.swap mint proofs), .inr { req i with extension := some v }] := by
      rw [ht] at hmade
      rcases (@List.prefix_concat_iff _ _ [_, _] _).1 hmade with h | h
      · exact h
      · exact absurd (Nat.le_zero.1 h.sublist.countP_le) hcall
    have hlen := (P.thread i).length_made_le
    refine ⟨token, mint, keysets, proofs, ?_, hp, hc, ?_⟩
    · rw [invocations, hall]
      rfl
    · rw [hall] at hlen
      exact sum_taken_eq (Nat.le_of_succ_le_succ hlen) ht

/-- At the mints no proof is spent twice. -/
theorem nodup_env (h : Reachable (mintEnv host) (requests C requirement uuid req s) P)
    (hs : (s.map identity).Nodup) : (P.env.map identity).Nodup := by
  refine h.env_induction (I := fun s => (s.map identity).Nodup) hs ?_ fun _ h => h.2
  intro s e r s' hs h
  cases h with
  | keysets r => exact hs
  | refused e => exact hs
  | accepted r h => exact h
  | handled resp => exact hs

theorem sum_behind_le (h : Reachable (mintEnv host) (requests C requirement uuid req s) P)
    (F : Finset ι) : ∑ i ∈ F, behind host (P.thread i) ≤ P.env :=
  (le_add_of_nonneg_left (Multiset.zero_le _)).trans (h.sum_cost_le (mintEnv_pays host) F)

/-! ## The value behind the calls of the handler -/

theorem totalValue_add (s t : Multiset (H × Proof)) :
    totalValue (s + t) = totalValue s + totalValue t := by
  rw [totalValue, Multiset.map_add, Multiset.sum_add, totalValue, totalValue]

theorem totalValue_mono {s t : Multiset (H × Proof)} (h : s ≤ t) : totalValue s ≤ totalValue t := by
  obtain ⟨u, rfl⟩ := Multiset.le_iff_exists_add.1 h
  rw [totalValue_add]
  exact Nat.le_add_right _ _

omit [DecidableEq ι] in
theorem totalValue_sum (F : Finset ι) (f : ι → Multiset (H × Proof)) :
    totalValue (∑ i ∈ F, f i) = ∑ i ∈ F, totalValue (f i) := by
  induction F using Finset.cons_induction with
  | empty => rfl
  | cons i F hi ih => rw [Finset.sum_cons, Finset.sum_cons, totalValue_add, ih]

theorem totalValue_inputsAt (mint : MintUrl) (proofs : Proofs) :
    totalValue (inputsAt host mint proofs) = proofs.value := by
  rw [totalValue, inputsAt, Multiset.map_coe, Multiset.sum_coe, List.map_map, Proofs.value,
    Amount.exactSum, List.map_map]
  rfl

theorem invocations_mul_le (h : Reachable (mintEnv host) (requests C requirement uuid req s) P)
    (i : ι) : invocations (P.thread i) * requirement.amount.toNat ≤
      totalValue (behind host (P.thread i)) := by
  rcases invocations_eq_zero_or h i with h | ⟨token, mint, keysets, proofs, h⟩
  · rw [h, zero_mul]
    exact Nat.zero_le _
  · rw [h.once, one_mul, h.behind_eq, totalValue_inputsAt]
    exact h.covers.amount_le

/-! ## No proof is used twice -/

/-- No proof is used twice: every call of the handler has its own spent proofs behind it, and these
are worth the required amount. -/
structure Exclusive (C : Cashu B Token) (requirement : PopRequirement B) (host : MintUrl → H)
    (req : ι → Request B X)
    (P : Pool ((MintClient B).sum (Next B X)) Response ι (Multiset (H × Proof))) : Prop where
  invoked : ∀ i, invocations (P.thread i) = 0 ∨ ∃ token mint keysets proofs,
    Invoked C requirement host (req i) (P.thread i) token mint keysets proofs
  spent : ∀ i, behind host (P.thread i) ≤ P.env
  nodup : ∀ i, ((behind host (P.thread i)).map identity).Nodup
  disjoint : ∀ i j, i ≠ j → Disjoint ((behind host (P.thread i)).map identity)
    ((behind host (P.thread j)).map identity)
  value : ∀ F : Finset ι, (∑ i ∈ F, invocations (P.thread i)) * requirement.amount.toNat ≤
    totalValue P.env

/-- In every interleaving of any requests, no proof is used twice. -/
theorem exclusive_of_reachable (hs : (s.map identity).Nodup)
    (h : Reachable (mintEnv host) (requests C requirement uuid req s) P) :
    Exclusive C requirement host req P := by
  have hnodup : (P.env.map identity).Nodup := nodup_env h hs
  have hspent (i : ι) : behind host (P.thread i) ≤ P.env := by
    have hsum := sum_behind_le h {i}
    rwa [Finset.sum_singleton] at hsum
  refine ⟨invocations_eq_zero_or h, hspent, fun i => ?_, fun i j hij => ?_, fun F => ?_⟩
  · exact Multiset.nodup_of_le (Multiset.map_le_map (hspent i)) hnodup
  · have hpair := sum_behind_le h {i, j}
    rw [Finset.sum_pair hij] at hpair
    have hadd := Multiset.nodup_of_le (Multiset.map_le_map hpair) hnodup
    rw [Multiset.map_add] at hadd
    exact (Multiset.nodup_add.1 hadd).2.2
  · calc (∑ i ∈ F, invocations (P.thread i)) * requirement.amount.toNat
        = ∑ i ∈ F, invocations (P.thread i) * requirement.amount.toNat := Finset.sum_mul ..
      _ ≤ ∑ i ∈ F, totalValue (behind host (P.thread i)) :=
        Finset.sum_le_sum fun i _ => invocations_mul_le h i
      _ = totalValue (∑ i ∈ F, behind host (P.thread i)) := (totalValue_sum F _).symm
      _ ≤ totalValue P.env := totalValue_mono (sum_behind_le h F)

end

namespace Reference

/-- Two requests with the same token: the swap of the first succeeds and its handler is called, that of
the second is refused. -/
theorem exclusive_popKeyset :
    ∃ P, invocations (P.thread true) = 1 ∧
      (∃ resp, (P.thread false).phase = .running (.ret resp) ∧ resp.status = paymentRequired) ∧
        Exclusive (cashu tokens) requirement id (fun _ : Bool => request "cashuBpop") P := by
  have hrefused : Runs (requirePop (cashu tokens) requirement ⟨0⟩ (request "cashuBpop"))
      [.inl (keysetsEvent mint (.ok keysets)),
        .inl (swapEvent mint (token popKeyset).proofs (.error (.rejectedSwap "Token Already Spent")))]
      _ :=
    requirePop_runs_iff.2 (.failed (t := [_, _]) (readToken_request rfl) (.swapFailed rfl rfl))
  have hstart : Reachable (mintEnv id) (requests (cashu tokens) requirement (fun _ => ⟨0⟩)
      (fun _ : Bool => request "cashuBpop") 0) _ := .refl
  obtain ⟨P, hP, -, htrue, hne⟩ := hstart.exists_of_runs (i := true) rfl
    (runs_requirePop ⟨0⟩ ⟨200, [], "ok"⟩) (.cons (.keysets _) (.cons (.accepted _ (by decide))
      (.cons (.handled _) (.nil _))))
  obtain ⟨Q, hQ, -, hfalse, hne'⟩ := hP.exists_of_runs (i := false) (hne false (by decide)) hrefused
    (.cons (.keysets _) (.cons (.refused _) (.nil _)))
  refine ⟨Q, ?_, ⟨_, congrArg Thread.phase hfalse, ?_⟩, exclusive_of_reachable (by decide) hQ⟩
  · rw [hne' true (by decide), invocations, htrue]
    rfl
  · simp only [ValidationError.ofMintClient, validationErrorToResponse,
      challengeResponse_eq (cashu_acceptsVisibleAscii tokens), textResponse]

end Reference

end CdkPopVerifier
