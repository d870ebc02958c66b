import CdkPopVerifier.Lib.Concurrent

/-!
# Implementations that take effect at one call

Each call of a signature `S` is implemented by a program over a signature `T`, and a pool runs the
implemented programs, so that the calls of `T` that belong to different calls of `S` interleave.  An
implementation is `Atomic` if it takes its effect at one of its calls, or at its return: before that
nothing changes that the environment for `S` shows, and after it nothing is called any more.

If every implementation is atomic, then the pool over `T` does nothing that the pool over `S` cannot
do (`Refines.exists_reachable`): the threads stand at the same places, and the states of the two
environments are related.
-/

namespace Interaction

variable {S T : Sig} {α β ι σ τ : Type}

/-! ## Atomic programs -/

/-- `Atomic ρ F R p`: the program `p`, in the environment `F`, takes its effect `ρ` on a related state
at one of its calls, or when it returns.  If it panics, then without an effect. -/
def Atomic (ρ : σ → β → σ → Prop) (F : Env T τ) (R : τ → σ → Prop) : Prog T β → Prop
  | .ret v => ∀ t s, R t s → ∃ s', ρ s v s' ∧ R t s'
  | .panic => True
  | .call c k => ∀ t s r t', R t s → F.reply t c r t' →
    (R t' s ∧ Atomic ρ F R (k r)) ∨ ∃ v s', k r = .ret v ∧ ρ s v s' ∧ R t' s'

/-- Every call is implemented by an atomic program, and what `F` does by itself is a step of `E` or is
not seen. -/
structure Refines (E : Env S σ) (F : Env T τ) (R : τ → σ → Prop)
    (h : ι → ∀ e : S.Op, Prog T (S.Reply e)) : Prop where
  atomic : ∀ i e, Atomic (fun s v s' => E.reply s e v s') F R (h i e)
  idle : ∀ {t s t'}, R t s → F.idle t t' → ∃ s', (s' = s ∨ E.idle s s') ∧ R t' s'

section

variable {ρ : σ → β → σ → Prop} {F : Env T τ} {R : τ → σ → Prop}

/-- Nothing is seen of the call, whatever the reply is. -/
def Silent (F : Env T τ) (R : τ → σ → Prop) (c : T.Op) : Prop :=
  ∀ t s r t', R t s → F.reply t c r t' → R t' s

theorem Silent.atomic_call {c : T.Op} {k : T.Reply c → Prog T β} (hc : Silent F R c)
    (hk : ∀ r, Atomic ρ F R (k r)) : Atomic ρ F R (.call c k) :=
  fun t s r t' hR hr => .inl ⟨hc t s r t' hR hr, hk r⟩

/-! ### Programs that can fail -/

variable {γ ε ε' : Type} {ρ : σ → Except ε β → σ → Prop}

theorem Atomic.attempt_bind {x : Except ε γ} {f : γ → ExceptT ε (Prog T) β}
    (herror : ∀ e, Atomic ρ F R (.ret (.error e))) (hf : ∀ a, x = .ok a → Atomic ρ F R (f a).run) :
    Atomic ρ F R (attempt x >>= f).run := by
  cases x with
  | error e => exact herror e
  | ok a => exact hf a rfl

theorem Atomic.unwind_bind {x : Option (Except ε γ)} {f : γ → ExceptT ε (Prog T) β}
    (herror : ∀ e, Atomic ρ F R (.ret (.error e)))
    (hf : ∀ a, x = some (.ok a) → Atomic ρ F R (f a).run) : Atomic ρ F R (unwind x >>= f).run := by
  rcases x with _ | e | a
  · trivial
  · exact herror e
  · exact hf a rfl

theorem Silent.atomic_callExcept_bind {c : T.Op} {g : T.Reply c → Except ε' γ} {m : ε' → ε}
    {f : γ → ExceptT ε (Prog T) β} (hc : Silent F R c)
    (herror : ∀ e, Atomic ρ F R (.ret (.error e))) (hf : ∀ a, Atomic ρ F R (f a).run) :
    Atomic ρ F R (callExcept c g m >>= f).run := by
  refine hc.atomic_call fun r => ?_
  change Atomic ρ F R (Prog.bind (.ret ((g r).mapError m)) (ExceptT.bindCont f))
  cases (g r).mapError m with
  | error e => exact herror e
  | ok a => exact hf a

/-- A program whose last call takes the effect. -/
theorem atomic_callExcept_attempt {c : T.Op} {g : T.Reply c → Except ε' γ} {m : ε' → ε}
    {f : γ → Except ε β} (hc : ∀ t s r t', R t s → F.reply t c r t' →
      ∃ s', ρ s ((g r).mapError m >>= f) s' ∧ R t' s') :
    Atomic ρ F R (callExcept c g m >>= fun a => attempt (f a)).run := by
  intro t s r t' hR hr
  obtain ⟨s', hs', hR'⟩ := hc t s r t' hR hr
  refine .inr ⟨_, s', ?_, hs', hR'⟩
  change Prog.bind (.ret ((g r).mapError m)) (ExceptT.bindCont _) = _
  cases (g r).mapError m <;> rfl

end

/-! ## Threads and the threads that implement them -/

/-- What is left of a program once the call at hand has returned. -/
def resume (h : ∀ e : S.Op, Prog T (S.Reply e)) {e : S.Op} (k : S.Reply e → Prog S α)
    (q : Prog T (S.Reply e)) : Prog T α :=
  q >>= fun v => (k v).interp h

/-- `Implemented E F R h th th'`: the thread `th'` stands where `th` stands, between two calls or in the
middle of the implementation of one. -/
inductive Implemented (E : Env S σ) (F : Env T τ) (R : τ → σ → Prop)
    (h : ∀ e : S.Op, Prog T (S.Reply e)) : Thread S α → Thread T α → Prop
  | between {l : List (Event S)} {l' : List (Event T)} {p : Prog S α} (hl : Implements h l l') :
    Implemented E F R h ⟨l, .running p⟩ ⟨l', .running (p.interp h)⟩
  | resumed {l : List (Event S)} {l' m : List (Event T)} {e : S.Op} {k : S.Reply e → Prog S α}
      {q : Prog T (S.Reply e)} (hl : Implements h l l') (hm : Path (h e) m q) (hne : m ≠ [])
      (hq : Atomic (fun s v s' => E.reply s e v s') F R q) (hcall : ∀ v, q ≠ .ret v) :
    Implemented E F R h ⟨l, .waiting e k⟩ ⟨l' ++ m, .running (resume h k q)⟩
  | calling {l : List (Event S)} {l' m : List (Event T)} {e : S.Op} {k : S.Reply e → Prog S α}
      {c : T.Op} {k' : T.Reply c → Prog T (S.Reply e)} (hl : Implements h l l')
      (hm : Path (h e) m (.call c k'))
      (hq : Atomic (fun s v s' => E.reply s e v s') F R (.call c k')) :
    Implemented E F R h ⟨l, .waiting e k⟩ ⟨l' ++ m, .waiting c fun r => resume h k (k' r)⟩
  | pending {l : List (Event S)} {l' m : List (Event T)} {e : S.Op} {k : S.Reply e → Prog S α}
      {c : T.Op} {k' : T.Reply c → Prog T (S.Reply e)} {r : T.Reply c} (hl : Implements h l l')
      (hm : Path (h e) m (.call c k'))
      (hq : Atomic (fun s v s' => E.reply s e v s') F R (k' r)) :
    Implemented E F R h ⟨l, .waiting e k⟩ ⟨l' ++ m, .replied c (fun r => resume h k (k' r)) r⟩
  | effected {l : List (Event S)} {l' m : List (Event T)} {e : S.Op} {k : S.Reply e → Prog S α}
      {v : S.Reply e} {c : T.Op} {k' : T.Reply c → Prog T (S.Reply e)} {r : T.Reply c}
      (hl : Implements h l l') (hm : Path (h e) m (.call c k')) (hv : k' r = .ret v) :
    Implemented E F R h ⟨l, .replied e k v⟩ ⟨l' ++ m, .replied c (fun r => resume h k (k' r)) r⟩

theorem Implements.snoc {h : ∀ e : S.Op, Prog T (S.Reply e)} {l : List (Event S)}
    {l' m : List (Event T)} {e : S.Op} {v : S.Reply e} (hl : Implements h l l')
    (hm : Runs (h e) m v) : Implements h (l ++ [⟨e, v⟩]) (l' ++ m) := by
  induction hl with
  | nil =>
    have hcons := Implements.cons hm .nil
    rwa [List.append_nil] at hcons
  | cons h₁ _ ih =>
    rw [List.cons_append, List.append_assoc]
    exact .cons h₁ ih

section

variable [DecidableEq ι] {E : Env S σ} {F : Env T τ} {R : τ → σ → Prop}
  {h : ι → ∀ e : S.Op, Prog T (S.Reply e)} {prog : ι → Prog S α} {s₀ : σ} {t₀ : τ}

/-- The two pools stand at the same places, in related environments. -/
structure Matches (E : Env S σ) (F : Env T τ) (R : τ → σ → Prop)
    (h : ι → ∀ e : S.Op, Prog T (S.Reply e)) (Q : Pool S α ι σ) (P : Pool T α ι τ) : Prop where
  env : R P.env Q.env
  thread : ∀ i, Implemented E F R (h i) (Q.thread i) (P.thread i)

/-- From the pool `Q` on, the thread `i` can get to `th` while the other threads stand still, in an
environment that is related to `t`. -/
def Reaches (E : Env S σ) (R : τ → σ → Prop) (Q : Pool S α ι σ) (i : ι) (t : τ)
    (th : Thread S α) : Prop :=
  ∃ Q', Reachable E Q Q' ∧ R t Q'.env ∧ Q'.thread i = th ∧ ∀ j, j ≠ i → Q'.thread j = Q.thread j

variable {Q : Pool S α ι σ} {P P' : Pool T α ι τ} {i : ι} {t t' : τ} {l : List (Event S)} {e : S.Op}
  {k : S.Reply e → Prog S α}

theorem Reachable.trans {Q₁ Q₂ Q₃ : Pool S α ι σ} (h₁ : Reachable E Q₁ Q₂)
    (h₂ : Reachable E Q₂ Q₃) : Reachable E Q₁ Q₃ := by
  induction h₂ with
  | refl => exact h₁
  | step _ hs ih => exact ih.step hs

theorem Reaches.refl (hR : R t Q.env) : Reaches E R Q i t (Q.thread i) :=
  ⟨Q, .refl, hR, rfl, fun _ _ => rfl⟩

/-- One more step of the thread, which may change the environment. -/
theorem Reaches.step {th th' : Thread S α} (hQ : Reaches E R Q i t th)
    (hstep : ∀ Q' : Pool S α ι σ, R t Q'.env → Q'.thread i = th →
      ∃ s, R t' s ∧ Step E Q' { Q'.set i th' with env := s }) : Reaches E R Q i t' th' := by
  obtain ⟨Q', hr, henv, hi, hj⟩ := hQ
  obtain ⟨s, hs, hst⟩ := hstep Q' henv hi
  refine ⟨_, hr.step hst, hs, Pool.set_thread_self Q' i th', fun j hne => ?_⟩
  exact (Pool.set_thread_of_ne Q' hne th').trans (hj j hne)

theorem Reaches.send (hQ : Reaches E R Q i t ⟨l, .running (.call e k)⟩) :
    Reaches E R Q i t ⟨l, .waiting e k⟩ :=
  hQ.step fun _ henv hi => ⟨_, henv, .send hi⟩

theorem Reaches.serve {v : S.Reply e} (hQ : Reaches E R Q i t ⟨l, .waiting e k⟩)
    (hv : ∀ s, R t s → ∃ s', E.reply s e v s' ∧ R t' s') :
    Reaches E R Q i t' ⟨l, .replied e k v⟩ := by
  refine hQ.step fun Q' henv hi => ?_
  obtain ⟨s', hr, hs'⟩ := hv _ henv
  exact ⟨s', hs', .serve hi hr⟩

theorem Reaches.receive {v : S.Reply e} (hQ : Reaches E R Q i t ⟨l, .replied e k v⟩) :
    Reaches E R Q i t ⟨l ++ [⟨e, v⟩], .running (k v)⟩ :=
  hQ.step fun _ henv hi => ⟨_, henv, .receive hi⟩

/-- When the implementation returns without a call, the abstract call is made and served at once. -/
theorem Reaches.ret {v : S.Reply e} (hQ : Reaches E R Q i t ⟨l, .waiting e k⟩)
    (hv : Atomic (fun s v s' => E.reply s e v s') F R (.ret v)) :
    Reaches E R Q i t ⟨l ++ [⟨e, v⟩], .running (k v)⟩ :=
  (hQ.serve (hv t)).receive

/-- The thread that implements `p` makes its next call: so does `p`, after the calls whose
implementations return at once. -/
theorem Reaches.exists_waiting (hh : Refines E F R h) {p : Prog S α} {l' : List (Event T)} {c : T.Op}
    {k₀ : T.Reply c → Prog T α} (hQ : Reaches E R Q i t ⟨l, .running p⟩)
    (hl : Implements (h i) l l') (hp : p.interp (h i) = .call c k₀) :
    ∃ (l₁ : List (Event S)) (e : S.Op) (k : S.Reply e → Prog S α)
      (k' : T.Reply c → Prog T (S.Reply e)), Reaches E R Q i t ⟨l₁, .waiting e k⟩ ∧
        Implements (h i) l₁ l' ∧ h i e = .call c k' ∧ k₀ = fun r => resume (h i) k (k' r) := by
  induction p generalizing l with
  | ret a => cases hp
  | panic => cases hp
  | call e k ih =>
    have hatomic := hh.atomic i e
    have hrun : Path (h i e) [] (h i e) := .nil _
    rw [Prog.interp] at hp
    rcases hq : h i e with v | _ | ⟨c', k'⟩
    · rw [hq] at hp hatomic hrun
      refine ih v (hQ.send.ret hatomic) ?_ hp
      have hsnoc := hl.snoc (hq ▸ hrun.runs)
      rwa [List.append_nil] at hsnoc
    · rw [hq] at hp
      cases hp
    · rw [hq] at hp
      cases hp
      exact ⟨l, e, k, k', hQ.send, hl, hq, rfl⟩

/-- The thread `i` has made a step over `T`, and its counterpart can follow. -/
theorem Reaches.exists_matches {th : Thread S α} (hQ : Reaches E R Q i t th)
    (hm : Matches E F R h Q P) (ht : t = P'.env)
    (hi : Implemented E F R (h i) th (P'.thread i)) (hj : ∀ j, j ≠ i → P'.thread j = P.thread j) :
    ∃ Q', Reachable E Q Q' ∧ Matches E F R h Q' P' ∧ ∀ j, j ≠ i → Q'.thread j = Q.thread j := by
  obtain ⟨Q', hr, henv, hQi, hQj⟩ := hQ
  refine ⟨Q', hr, ⟨ht ▸ henv, fun j => ?_⟩, hQj⟩
  by_cases hji : j = i
  · rw [hji, hQi]
    exact hi
  · rw [hQj j hji, hj j hji]
    exact hm.thread j

variable {l' : List (Event T)} {c : T.Op} {k₀ : T.Reply c → Prog T α} {r : T.Reply c}

/-- A thread over `T` makes a call. -/
theorem Matches.send (hh : Refines E F R h) (hm : Matches E F R h Q P)
    (hP : P.thread i = ⟨l', .running (.call c k₀)⟩) :
    ∃ Q', Reachable E Q Q' ∧ Matches E F R h Q' (P.set i ⟨l', .waiting c k₀⟩) ∧
      ∀ j, j ≠ i → Q'.thread j = Q.thread j := by
  have hi := hm.thread i
  have hQ : Reaches E R Q i P.env (Q.thread i) := .refl hm.env
  rw [hP] at hi
  generalize Q.thread i = th at hi hQ
  generalize hphase : Phase.running (.call c k₀) = ph at hi
  rcases hi with @⟨l, _, p, hl⟩ | @⟨l, l', m, e, k, q, hl, hm', hne, hq, hcall⟩ | _ | _ | _
  · obtain ⟨l₁, e, k, k', hQ', hl₁, hcall, rfl⟩ :=
      hQ.exists_waiting hh hl (Phase.running.inj hphase).symm
    refine hQ'.exists_matches hm rfl ?_ fun j hj => Pool.set_thread_of_ne P hj _
    rw [Pool.set_thread_self]
    have hcalling := @Implemented.calling S T α σ τ E F R (h i) l₁ _ [] e k c k' hl₁
      (hcall ▸ .nil _) (hcall ▸ hh.atomic i e)
    rwa [List.append_nil] at hcalling
  · rcases q with v | _ | ⟨c', k'⟩
    · exact absurd rfl (hcall v)
    · cases Phase.running.inj hphase
    · cases Phase.running.inj hphase
      refine hQ.exists_matches hm rfl ?_ fun j hj => Pool.set_thread_of_ne P hj _
      rw [Pool.set_thread_self]
      exact .calling hl hm' hq
  all_goals cases hphase

/-- A call of a thread over `T` is served.  Nothing is seen of it, or the implementation takes its
effect. -/
theorem Matches.serve (hm : Matches E F R h Q P) (hP : P.thread i = ⟨l', .waiting c k₀⟩)
    (hr : F.reply P.env c r t') :
    ∃ Q', Reachable E Q Q' ∧
      Matches E F R h Q' { P.set i ⟨l', .replied c k₀ r⟩ with env := t' } ∧
        ∀ j, j ≠ i → Q'.thread j = Q.thread j := by
  have hi := hm.thread i
  rw [hP] at hi
  generalize hth : Q.thread i = th at hi
  generalize hphase : Phase.waiting c k₀ = ph at hi
  rcases hi with _ | _ | @⟨l, l', m, e, k, c, k', hl, hm', hq⟩ | _ | _
  rotate_left 2
  · cases hphase
    rcases hq _ _ _ _ hm.env hr with ⟨hR, hq'⟩ | ⟨v, s', hv, hrep, hR⟩
    · have hQ : Reaches E R Q i t' ⟨l, .waiting e k⟩ := ⟨Q, .refl, hR, hth, fun _ _ => rfl⟩
      refine hQ.exists_matches hm rfl ?_ fun j hj => Pool.set_thread_of_ne P hj _
      exact (Pool.set_thread_self P i _).symm ▸ .pending hl hm' hq'
    · have hQ : Reaches E R Q i t' ⟨l, .replied e k v⟩ :=
        ⟨_, .step .refl (.serve hth hrep), hR, Pool.set_thread_self Q i _,
          fun j hj => Pool.set_thread_of_ne Q hj _⟩
      refine hQ.exists_matches hm rfl ?_ fun j hj => Pool.set_thread_of_ne P hj _
      exact (Pool.set_thread_self P i _).symm ▸ .effected hl hm' hv
  all_goals cases hphase

/-- A thread over `T` receives a reply: the implementation goes on, or it returns. -/
theorem Matches.receive (hm : Matches E F R h Q P) (hP : P.thread i = ⟨l', .replied c k₀ r⟩) :
    ∃ Q', Reachable E Q Q' ∧ Matches E F R h Q' (P.set i ⟨l' ++ [⟨c, r⟩], .running (k₀ r)⟩) ∧
      ∀ j, j ≠ i → Q'.thread j = Q.thread j := by
  have hi := hm.thread i
  have hQ : Reaches E R Q i P.env (Q.thread i) := .refl hm.env
  rw [hP] at hi
  generalize Q.thread i = th at hi hQ
  generalize hphase : Phase.replied c k₀ r = ph at hi
  rcases hi with _ | _ | _ | @⟨l, l', m, e, k, c, k', r, hl, hm', hq⟩ |
    @⟨l, l', m, e, k, v, c, k', r, hl, hm', hv⟩
  rotate_left 3
  · cases hphase
    have hpath := hm'.snoc r
    have hserved : m ++ [⟨c, r⟩] ≠ [] := List.append_ne_nil_of_right_ne_nil _ (List.cons_ne_nil _ _)
    rcases hk : k' r with v | _ | ⟨c', k''⟩
    · rw [hk] at hq hpath
      refine (hQ.ret hq).exists_matches hm rfl ?_ fun j hj => Pool.set_thread_of_ne P hj _
      rw [Pool.set_thread_self, List.append_assoc]
      dsimp only
      rw [hk]
      exact .between (hl.snoc hpath.runs)
    all_goals
      refine hQ.exists_matches hm rfl ?_ fun j hj => Pool.set_thread_of_ne P hj _
      rw [Pool.set_thread_self, List.append_assoc]
      refine .resumed hl hpath hserved hq fun v hv => ?_
      cases hk.symm.trans hv
  · cases hphase
    have hpath := hm'.snoc r
    rw [hv] at hpath
    refine hQ.receive.exists_matches hm rfl ?_ fun j hj => Pool.set_thread_of_ne P hj _
    rw [Pool.set_thread_self, List.append_assoc]
    dsimp only
    rw [hv]
    exact .between (hl.snoc hpath.runs)
  all_goals cases hphase

/-- One step of the pool over `T` is matched by steps of the pool over `S`, of the same thread. -/
theorem Matches.step (hh : Refines E F R h) (hm : Matches E F R h Q P) (hs : Step F P P') :
    ∃ Q', Reachable E Q Q' ∧ Matches E F R h Q' P' ∧
      ∀ j, P'.thread j = P.thread j → Q'.thread j = Q.thread j := by
  have hmoved {i : ι} {th : Thread T α} (hne : th.phase ≠ (P.thread i).phase) (j : ι)
      (he : (P.set i th).thread j = P.thread j) : j ≠ i := by
    rintro rfl
    rw [Pool.set_thread_self] at he
    exact hne (congrArg Thread.phase he)
  cases hs with
  | send hP =>
    obtain ⟨Q', hQ', hm', hj⟩ := hm.send hh hP
    refine ⟨Q', hQ', hm', fun j he => hj j (hmoved ?_ j he)⟩
    rw [hP]
    exact fun h => by cases h
  | serve hP hr =>
    obtain ⟨Q', hQ', hm', hj⟩ := hm.serve hP hr
    refine ⟨Q', hQ', hm', fun j he => hj j (hmoved ?_ j he)⟩
    rw [hP]
    exact fun h => by cases h
  | receive hP =>
    obtain ⟨Q', hQ', hm', hj⟩ := hm.receive hP
    refine ⟨Q', hQ', hm', fun j he => hj j (hmoved ?_ j he)⟩
    rw [hP]
    exact fun h => by cases h
  | idle hidle =>
    obtain ⟨s', hs', hR⟩ := hh.idle hm.env hidle
    rcases hs' with rfl | hs'
    · exact ⟨Q, .refl, ⟨hR, hm.thread⟩, fun _ _ => rfl⟩
    · exact ⟨_, .step .refl (.idle hs'), ⟨hR, hm.thread⟩, fun _ _ => rfl⟩

/-- Whatever the pool of the implemented programs does, the pool of the programs can do. -/
theorem Refines.exists_reachable (hh : Refines E F R h) (hR : R t₀ s₀)
    (hP : Reachable F (.start (fun i => (prog i).interp (h i)) t₀) P) :
    ∃ Q, Reachable E (.start prog s₀) Q ∧ Matches E F R h Q P := by
  induction hP with
  | refl => exact ⟨_, .refl, hR, fun i => .between .nil⟩
  | step _ hs ih =>
    obtain ⟨Q, hQ, hm⟩ := ih
    obtain ⟨Q', hQ', hm', -⟩ := hm.step hh hs
    exact ⟨Q', hQ.trans hQ', hm'⟩

/-- A thread that has finished over `T` has the result of a run over `S` that starts with what its
counterpart has been answered; the implementations of the calls after that make no calls. -/
theorem Matches.exists_runs (hm : Matches E F R h Q P) (hQ : Reachable E (.start prog s₀) Q) {a : α}
    (ha : (P.thread i).phase = .running (.ret a)) :
    ∃ t, Runs (prog i) ((Q.thread i).answered ++ t) a ∧ Implements (h i) t [] ∧
      (Q.thread i).made = (Q.thread i).answered.map Sigma.fst := by
  have hi := hm.thread i
  have hpath := hQ.path i
  generalize Q.thread i = th at hi hpath
  generalize P.thread i = th' at hi ha
  cases hi with
  | @between l l' p hl =>
    have hret : p.interp (h i) = .ret a := Phase.running.inj ha
    obtain ⟨t, ht, himpl⟩ := runs_interp_iff.1 (hret ▸ .ret a : Runs (p.interp (h i)) [] a)
    refine ⟨t, ?_, himpl, ?_⟩
    · rw [Thread.answered, List.append_nil]
      exact hpath.runs_append ht
    · rw [Thread.made, Thread.answered, List.append_nil, List.append_nil]
  | @resumed l l' m e k q hl hm hne hq hret =>
    cases q with
    | ret v => exact absurd rfl (hret v)
    | panic => cases Phase.running.inj ha
    | call c k' => cases Phase.running.inj ha
  | _ => cases ha

end

/-! ## Environments with fewer replies -/

section

variable {K : Event S → Prop} {E : Env S σ}

/-- The replies of `E` of which `K` holds. -/
def Env.restrict (E : Env S σ) (K : Event S → Prop) : Env S σ where
  reply s e r s' := E.reply s e r s' ∧ K ⟨e, r⟩
  idle := E.idle

theorem Atomic.mono {ρ ρ' : σ → β → σ → Prop} (hρ : ∀ s v s', ρ s v s' → ρ' s v s') {F : Env T τ}
    {R : τ → σ → Prop} {p : Prog T β} (h : Atomic ρ F R p) : Atomic ρ' F R p := by
  induction p with
  | ret v =>
    intro t s hR
    obtain ⟨s', hs', hR'⟩ := h t s hR
    exact ⟨s', hρ _ _ _ hs', hR'⟩
  | panic => trivial
  | call c k ih =>
    intro t s r t' hR hr
    rcases h t s r t' hR hr with ⟨hR', hk⟩ | ⟨v, s', hv, hs', hR'⟩
    · exact .inl ⟨hR', ih r hk⟩
    · exact .inr ⟨v, s', hv, hρ _ _ _ hs', hR'⟩

theorem Refines.of_restrict {F : Env T τ} {R : τ → σ → Prop}
    {h : ι → ∀ e : S.Op, Prog T (S.Reply e)} (hh : Refines (E.restrict K) F R h) : Refines E F R h :=
  ⟨fun i e => (hh.atomic i e).mono fun _ _ _ hs => hs.1, hh.idle⟩

variable [DecidableEq ι]

theorem Step.of_restrict {P Q : Pool S α ι σ} (h : Step (E.restrict K) P Q) : Step E P Q := by
  cases h with
  | send h => exact .send h
  | serve h hr => exact .serve h hr.1
  | receive h => exact .receive h
  | idle h => exact .idle h

theorem Reachable.of_restrict {P Q : Pool S α ι σ} (h : Reachable (E.restrict K) P Q) :
    Reachable E P Q := by
  induction h with
  | refl => exact .refl
  | step _ hs ih => exact ih.step hs.of_restrict

/-- `K` holds of everything that a thread has been answered. -/
theorem Reachable.forall_mem_answered {prog : ι → Prog S α} {s : σ} {P : Pool S α ι σ}
    (h : Reachable (E.restrict K) (.start prog s) P) (i : ι) :
    ∀ x ∈ (P.thread i).answered, K x :=
  @Reachable.forall_answered _ _ _ _ _ _ _ _ _ (fun _ => K) h (fun hr => ⟨hr.2, fun _ hx => hx⟩)
    (fun _ _ hx => hx) i

end

/-! ## Implementing the calls of one of two signatures -/

section

variable {X : Sig}

/-- The calls of `S` in an environment for `S.sum X`. -/
def Env.left (E : Env (S.sum X) σ) : Env S σ where
  reply s e r s' := E.reply s (.inl e) r s'
  idle := E.idle

/-- The calls of `X` that a thread has made. -/
def Thread.rights (th : Thread (S.sum X) α) : List X.Op := th.made.filterMap Sum.getRight?

theorem Atomic.inl {ρ : σ → β → σ → Prop} {F : Env (T.sum X) τ} {R : τ → σ → Prop} {p : Prog T β}
    (h : Atomic ρ F.left R p) : Atomic ρ F R p.inl := by
  induction p with
  | ret v => exact h
  | panic => trivial
  | call c k ih =>
    intro t s r t' hR hr
    rcases h t s r t' hR hr with ⟨hR', hk⟩ | ⟨v, s', hv, hs', hR'⟩
    · exact .inl ⟨hR', ih r hk⟩
    · exact .inr ⟨v, s', congrArg Prog.inl hv, hs', hR'⟩

/-- It is enough that the implementations of the calls of `S` are atomic and that the calls of `X` have
the same effect in both environments. -/
theorem Refines.implementInl {E : Env (S.sum X) σ} {F : Env (T.sum X) τ} {R : τ → σ → Prop}
    {h : ι → ∀ e : S.Op, Prog T (S.Reply e)}
    (hleft : ∀ i e, Atomic (fun s v s' => E.reply s (.inl e) v s') F.left R (h i e))
    (hright : ∀ {t s e r t'}, R t s → F.reply t (.inr e) r t' → ∃ s', E.reply s (.inr e) r s' ∧ R t' s')
    (hidle : ∀ {t s t'}, R t s → F.idle t t' → ∃ s', (s' = s ∨ E.idle s s') ∧ R t' s') :
    Refines E F R fun i => Prog.implementInl (h i) where
  atomic i e := by
    cases e with
    | inl e => exact (hleft i e).inl
    | inr e =>
      intro t s r t' hR hr
      obtain ⟨s', hs', hR'⟩ := hright hR hr
      exact .inr ⟨r, s', rfl, hs', hR'⟩
  idle := hidle

theorem Path.exists_of_inl {p : Prog S α} {t : List (Event (S.sum X))} {q : Prog (S.sum X) α}
    (h : Path p.inl t q) :
    ∃ (t' : List (Event S)) (q' : Prog S α), t = t'.map Event.inl ∧ q = q'.inl := by
  induction h with
  | nil => exact ⟨[], p, rfl, rfl⟩
  | @snoc t e k h r ih =>
    obtain ⟨t', q', rfl, hq⟩ := ih
    cases q' with
    | ret a => cases hq
    | panic => cases hq
    | call c k' =>
      cases hq
      exact ⟨t' ++ [⟨c, r⟩], k' r, by rw [List.map_append]; rfl, rfl⟩

theorem path_performInr {e : X.Op} {t : List (Event (S.sum X))} {q : Prog (S.sum X) (X.Reply e)}
    (h : Path (Prog.performInr e) t q) :
    (t = [] ∧ q = Prog.performInr e) ∨ ∃ r, t = [Event.inr ⟨e, r⟩] ∧ q = .ret r := by
  induction h with
  | nil => exact .inl ⟨rfl, rfl⟩
  | snoc h r ih =>
    rcases ih with ⟨rfl, hq⟩ | ⟨_, _, hq⟩
    · cases hq
      exact .inr ⟨r, rfl, rfl⟩
    · cases hq

variable {h : ∀ e : S.Op, Prog T (S.Reply e)}

theorem filterMap_getRight?_map_inl (t : List (Event S)) :
    ((t.map Event.inl : List (Event (S.sum X))).map Sigma.fst).filterMap Sum.getRight? = [] := by
  rw [List.map_map, List.filterMap_map]
  exact List.filterMap_eq_nil_iff.2 fun _ _ => rfl

theorem map_fst_rights (t : List (Event (S.sum X))) :
    (rights t).map Sigma.fst = (t.map Sigma.fst).filterMap Sum.getRight? := by
  rw [rights, List.map_filterMap, List.filterMap_map]
  apply List.filterMap_congr
  rintro ⟨e | e, r⟩ -
  · rfl
  · rfl

theorem Implements.filterMap_getRight?_eq {l : List (Event (S.sum X))} {l' : List (Event (T.sum X))}
    (hl : Implements (Prog.implementInl h) l l') :
    (l.map Sigma.fst).filterMap Sum.getRight? = (l'.map Sigma.fst).filterMap Sum.getRight? := by
  induction hl with
  | nil => rfl
  | @cons e r l m l' hm _ ih =>
    rw [List.map_append, List.filterMap_append, List.map_cons, List.filterMap_cons, ih]
    cases e with
    | inl e =>
      obtain ⟨m', rfl, -⟩ := runs_inl_iff.1 hm
      rw [filterMap_getRight?_map_inl]
      rfl
    | inr e =>
      obtain rfl := runs_performInr_iff.1 hm
      rfl

/-- In the middle of an implementation the calls of `X` are those of the call at hand. -/
theorem Path.filterMap_getRight?_eq {e : (S.sum X).Op} {m : List (Event (T.sum X))}
    {q : Prog (T.sum X) ((S.sum X).Reply e)} (hm : Path (Prog.implementInl h e) m q)
    (hne : m ≠ []) : (m.map Sigma.fst).filterMap Sum.getRight? = [e].filterMap Sum.getRight? := by
  cases e with
  | inl e =>
    obtain ⟨m', q', rfl, -⟩ := hm.exists_of_inl
    exact filterMap_getRight?_map_inl m'
  | inr e =>
    rcases path_performInr hm with ⟨rfl, -⟩ | ⟨r, rfl, -⟩
    · exact absurd rfl hne
    · rfl

/-- At a call of an implementation the calls of `X` are those of the call at hand. -/
theorem Path.filterMap_getRight?_concat {e : (S.sum X).Op} {m : List (Event (T.sum X))}
    {c : (T.sum X).Op} {k' : (T.sum X).Reply c → Prog (T.sum X) ((S.sum X).Reply e)}
    (hm : Path (Prog.implementInl h e) m (.call c k')) :
    (m.map Sigma.fst ++ [c]).filterMap Sum.getRight? = [e].filterMap Sum.getRight? := by
  cases e with
  | inl e =>
    obtain ⟨m', q', rfl, hq⟩ := hm.exists_of_inl
    cases q' with
    | ret v => cases hq
    | panic => cases hq
    | call c' k =>
      cases hq
      rw [List.filterMap_append, filterMap_getRight?_map_inl]
      rfl
  | inr e =>
    rcases path_performInr hm with ⟨rfl, hq⟩ | ⟨_, _, hq⟩
    · cases hq
      rfl
    · cases hq

/-- The calls of `X` are made one for one. -/
theorem Implemented.rights_eq {E : Env (S.sum X) σ} {F : Env (T.sum X) τ} {R : τ → σ → Prop}
    {th : Thread (S.sum X) α} {th' : Thread (T.sum X) α}
    (hi : Implemented E F R (Prog.implementInl h) th th') : th.rights = th'.rights := by
  unfold Thread.rights Thread.made
  cases hi with
  | between hl => simpa using hl.filterMap_getRight?_eq
  | resumed hl hm hne hq hret =>
    simp only [List.map_append, List.filterMap_append, List.append_nil,
      hl.filterMap_getRight?_eq, hm.filterMap_getRight?_eq hne]
  | calling hl hm hq =>
    have he := hm.filterMap_getRight?_concat
    rw [List.filterMap_append] at he
    simp only [List.map_append, List.filterMap_append, List.append_assoc,
      hl.filterMap_getRight?_eq, he]
  | pending hl hm hq =>
    have he := hm.filterMap_getRight?_concat
    rw [List.filterMap_append] at he
    simp only [List.map_append, List.filterMap_append, List.append_assoc,
      hl.filterMap_getRight?_eq, he]
  | effected hl hm hv =>
    have he := hm.filterMap_getRight?_concat
    rw [List.filterMap_append] at he
    simp only [List.map_append, List.filterMap_append, List.append_assoc,
      hl.filterMap_getRight?_eq, he]

end

end Interaction
