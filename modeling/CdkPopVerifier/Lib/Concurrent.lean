import CdkPopVerifier.Lib.Program
import Mathlib.Algebra.Order.BigOperators.Group.Finset

/-!
# Programs that share an environment

A pool runs one program for each index, in an environment with a state that all of them share.  A
thread sends a call, the environment serves it at some later time, and the thread receives the reply
later still; the steps of different threads interleave in any order, and the environment can take
steps of its own.  What a thread has been answered so far is part of one of its runs,
or of one that ends in a panic (`Reachable.exists_ends`).

If the environment pays for every reply it gives, in an ordered monoid, then what all threads together
have been answered is paid for by its state (`Reachable.sum_cost_le`).
-/

namespace Interaction

variable {S : Sig} {α ι σ A : Type}

/-! ## Pools and their steps -/

/-- A shared environment: the replies it can give to a call, each with the next state, and the steps
it can take by itself. -/
structure Env (S : Sig) (σ : Type) where
  reply : σ → (e : S.Op) → S.Reply e → σ → Prop
  idle : σ → σ → Prop

/-- Where a thread stands: at the rest of its program, at a call that is not served yet, or at a call
whose reply is on its way. -/
inductive Phase (S : Sig) (α : Type) where
  | running (p : Prog S α)
  | waiting (e : S.Op) (k : S.Reply e → Prog S α)
  | replied (e : S.Op) (k : S.Reply e → Prog S α) (r : S.Reply e)

/-- A thread: the calls whose replies it has received, and where it stands. -/
structure Thread (S : Sig) (α : Type) where
  received : List (Event S)
  phase : Phase S α

namespace Thread

/-- The rest of the program after the received replies. -/
def rest (th : Thread S α) : Prog S α :=
  match th.phase with
  | .running p => p
  | .waiting e k => .call e k
  | .replied e k _ => .call e k

/-- The calls that are made so far. -/
def made (th : Thread S α) : List S.Op :=
  th.received.map Sigma.fst ++
    match th.phase with
    | .running _ => []
    | .waiting e _ => [e]
    | .replied e _ _ => [e]

/-- The calls that are served so far, with their replies. -/
def answered (th : Thread S α) : List (Event S) :=
  th.received ++
    match th.phase with
    | .running _ => []
    | .waiting _ _ => []
    | .replied e _ r => [⟨e, r⟩]

end Thread

/-- A pool: the state of the environment and the threads. -/
structure Pool (S : Sig) (α ι σ : Type) where
  env : σ
  thread : ι → Thread S α

/-- The pool in which every thread is at the start of its program. -/
def Pool.start (prog : ι → Prog S α) (s : σ) : Pool S α ι σ where
  env := s
  thread i := ⟨[], .running (prog i)⟩

variable [DecidableEq ι]

/-- Replace a thread. -/
def Pool.set (P : Pool S α ι σ) (i : ι) (th : Thread S α) : Pool S α ι σ :=
  { P with thread := Function.update P.thread i th }

@[simp] theorem Pool.set_thread_self (P : Pool S α ι σ) (i : ι) (th : Thread S α) :
    (P.set i th).thread i = th := Function.update_self ..

theorem Pool.set_thread_of_ne (P : Pool S α ι σ) {i j : ι} (h : j ≠ i) (th : Thread S α) :
    (P.set i th).thread j = P.thread j := Function.update_of_ne h ..

/-- The steps of a pool. -/
inductive Step (E : Env S σ) : Pool S α ι σ → Pool S α ι σ → Prop
  | send {P : Pool S α ι σ} {i : ι} {l : List (Event S)} {e : S.Op} {k : S.Reply e → Prog S α}
    (h : P.thread i = ⟨l, .running (.call e k)⟩) : Step E P (P.set i ⟨l, .waiting e k⟩)
  | serve {P : Pool S α ι σ} {i : ι} {l : List (Event S)} {e : S.Op} {k : S.Reply e → Prog S α}
    {r : S.Reply e} {s : σ} (h : P.thread i = ⟨l, .waiting e k⟩) (hr : E.reply P.env e r s) :
    Step E P { P.set i ⟨l, .replied e k r⟩ with env := s }
  | receive {P : Pool S α ι σ} {i : ι} {l : List (Event S)} {e : S.Op} {k : S.Reply e → Prog S α}
    {r : S.Reply e} (h : P.thread i = ⟨l, .replied e k r⟩) :
    Step E P (P.set i ⟨l ++ [⟨e, r⟩], .running (k r)⟩)
  | idle {P : Pool S α ι σ} {s : σ} (h : E.idle P.env s) : Step E P { P with env := s }

/-- The pools that are reached from a pool. -/
inductive Reachable (E : Env S σ) (P : Pool S α ι σ) : Pool S α ι σ → Prop
  | refl : Reachable E P P
  | step {Q R : Pool S α ι σ} (h : Reachable E P Q) (hs : Step E Q R) : Reachable E P R

/-- What a step changes: the environment alone, or it answers one call of one thread. -/
theorem Step.cases_answered {E : Env S σ} {P Q : Pool S α ι σ} (h : Step E P Q) :
    ((Q.env = P.env ∨ E.idle P.env Q.env) ∧
      ∀ i, (Q.thread i).answered = (P.thread i).answered) ∨
    ∃ (i : ι) (e : S.Op) (r : S.Reply e), E.reply P.env e r Q.env ∧
      (Q.thread i).answered = (P.thread i).answered ++ [⟨e, r⟩] ∧
      ∀ j, j ≠ i → (Q.thread j).answered = (P.thread j).answered := by
  have hset {i : ι} {th : Thread S α} (h : th.answered = (P.thread i).answered) (j : ι) :
      ((P.set i th).thread j).answered = (P.thread j).answered := by
    by_cases hj : j = i
    · rw [hj, Pool.set_thread_self, h]
    · rw [Pool.set_thread_of_ne P hj]
  cases h with
  | send h =>
    refine .inl ⟨.inl rfl, hset ?_⟩
    rw [h]
    rfl
  | @serve i l e k r s h hr =>
    refine .inr ⟨i, e, r, hr, ?_, fun j hj => ?_⟩
    · change ((P.set i ⟨l, .replied e k r⟩).thread i).answered = _
      rw [Pool.set_thread_self, h, Thread.answered, Thread.answered, List.append_nil]
    · change ((P.set i ⟨l, .replied e k r⟩).thread j).answered = _
      rw [Pool.set_thread_of_ne P hj]
  | receive h =>
    refine .inl ⟨.inl rfl, hset ?_⟩
    rw [h]
    exact List.append_nil _
  | idle h => exact .inl ⟨.inr h, fun _ => rfl⟩

/-! ## What a thread has been answered is part of a run -/

variable {E : Env S σ} {prog : ι → Prog S α} {s : σ} {P : Pool S α ι σ}

theorem Reachable.path (h : Reachable E (.start prog s) P) (i : ι) :
    Path (prog i) (P.thread i).received (P.thread i).rest := by
  induction h with
  | refl => exact .nil _
  | @step Q R _ hs ih =>
    have hset {j : ι} {th : Thread S α} (h : j = i → Path (prog i) th.received th.rest) :
        Path (prog i) ((Q.set j th).thread i).received ((Q.set j th).thread i).rest := by
      by_cases hj : i = j
      · subst hj
        rw [Pool.set_thread_self]
        exact h rfl
      · rw [Pool.set_thread_of_ne Q hj]
        exact ih
    cases hs with
    | send h =>
      refine hset ?_
      rintro rfl
      rwa [h] at ih
    | serve h hr =>
      refine hset ?_
      rintro rfl
      rwa [h] at ih
    | @receive j l e k r h =>
      refine hset ?_
      rintro rfl
      rw [h] at ih
      exact ih.snoc r
    | idle h => exact ih

/-- What a thread has been answered is the start of a way in which its program can end, and so are the
calls it has made. -/
theorem Reachable.exists_ends [∀ e, Nonempty (S.Reply e)] (h : Reachable E (.start prog s) P)
    (i : ι) : ∃ t x, Ends (prog i) ((P.thread i).answered ++ t) x ∧
      (P.thread i).made <+: ((P.thread i).answered ++ t).map Sigma.fst := by
  have hpath := h.path i
  generalize P.thread i = th at hpath
  obtain ⟨l, p | ⟨e, k⟩ | ⟨e, k, r⟩⟩ := th
  · obtain ⟨t, x, hp⟩ := Interaction.exists_ends p
    refine ⟨t, x, ?_, t.map Sigma.fst, by simp [Thread.made, Thread.answered]⟩
    rw [Thread.answered, List.append_nil]
    exact hpath.ends_append hp
  · obtain ⟨r⟩ := ‹∀ e, Nonempty (S.Reply e)› e
    obtain ⟨t, x, hp⟩ := Interaction.exists_ends (k r)
    refine ⟨⟨e, r⟩ :: t, x, ?_, t.map Sigma.fst, by simp [Thread.made, Thread.answered]⟩
    rw [Thread.answered, List.append_nil]
    exact hpath.ends_append (.call r hp)
  · obtain ⟨t, x, hp⟩ := Interaction.exists_ends (k r)
    exact ⟨t, x, (hpath.snoc r).ends_append hp, t.map Sigma.fst,
      by simp [Thread.made, Thread.answered]⟩

/-- A thread that has finished has received the replies of one of its runs, and has made no other
calls. -/
theorem Reachable.runs_of_finished (h : Reachable E (.start prog s) P) {i : ι} {a : α}
    (ha : (P.thread i).phase = .running (.ret a)) :
    Runs (prog i) (P.thread i).received a ∧ (P.thread i).answered = (P.thread i).received ∧
      (P.thread i).made = (P.thread i).received.map Sigma.fst := by
  have hpath := h.path i
  rw [Thread.rest, ha] at hpath
  refine ⟨hpath.runs, ?_, ?_⟩
  · rw [Thread.answered, ha, List.append_nil]
  · rw [Thread.made, ha, List.append_nil]

/-- A thread that has panicked has received replies at which its program panics. -/
theorem Reachable.panics_of_phase (h : Reachable E (.start prog s) P) {i : ι}
    (hi : (P.thread i).phase = .running .panic) : Panics (prog i) (P.thread i).received := by
  have hpath := h.path i
  rw [Thread.rest, hi] at hpath
  exact hpath.panics

/-- The environment serves the calls of `t` one after the other. -/
inductive Env.Serves (E : Env S σ) : σ → List (Event S) → σ → Prop
  | nil (s : σ) : Env.Serves E s [] s
  | cons {s s' s'' : σ} {e : S.Op} {r : S.Reply e} {t : List (Event S)} (h : E.reply s e r s')
    (ht : Env.Serves E s' t s'') : Env.Serves E s (⟨e, r⟩ :: t) s''

/-- Every run whose calls the environment serves can be carried through by a thread, while the other
threads stand still. -/
theorem Reachable.exists_of_runs {P₀ : Pool S α ι σ} (h : Reachable E P₀ P) {i : ι}
    {l t : List (Event S)} {p : Prog S α} {a : α} {s' : σ} (hi : P.thread i = ⟨l, .running p⟩)
    (hp : Runs p t a) (hs : E.Serves P.env t s') :
    ∃ Q, Reachable E P₀ Q ∧ Q.env = s' ∧ Q.thread i = ⟨l ++ t, .running (.ret a)⟩ ∧
      ∀ j, j ≠ i → Q.thread j = P.thread j := by
  induction hp generalizing P l with
  | ret a =>
    cases hs
    exact ⟨P, h, rfl, by rw [hi, List.append_nil], fun _ _ => rfl⟩
  | @call e k t a r hk ih =>
    rcases hs with _ | ⟨hr, ht⟩
    have h₁ := h.step (.send hi)
    have h₂ := h₁.step (.serve (Pool.set_thread_self ..) hr)
    have h₃ := h₂.step (.receive (Pool.set_thread_self ..))
    obtain ⟨Q, hQ, henv, hQi, hQj⟩ := ih h₃ (Pool.set_thread_self ..) ht
    refine ⟨Q, hQ, henv, ?_, fun j hj => ?_⟩
    · rw [hQi, List.append_assoc]
      rfl
    · rw [hQj j hj, Pool.set_thread_of_ne _ hj]
      exact (Pool.set_thread_of_ne _ hj _).trans (Pool.set_thread_of_ne _ hj _)

/-- At most one call of a thread is made and not served. -/
theorem Thread.length_made_le (th : Thread S α) : th.made.length ≤ th.answered.length + 1 := by
  obtain ⟨l, p | ⟨e, k⟩ | ⟨e, k, r⟩⟩ := th <;> simp [made, answered]

/-! ## Calls that are licensed by earlier replies -/

/-- `AllLicensed L l t`: each call of `t` is licensed by `L` by the calls before it, which are `l` and
those of `t`. -/
def AllLicensed (L : List (Event S) → S.Op → Prop) : List (Event S) → List (Event S) → Prop
  | _, [] => True
  | l, x :: t => L l x.1 ∧ AllLicensed L (l ++ [x]) t

theorem AllLicensed.of_append {L : List (Event S) → S.Op → Prop} {l t₁ t₂ : List (Event S)}
    {x : Event S} (h : AllLicensed L l (t₁ ++ x :: t₂)) : L (l ++ t₁) x.1 := by
  induction t₁ generalizing l with
  | nil =>
    rw [List.append_nil]
    exact h.1
  | cons y t₁ ih =>
    have hx := ih h.2
    rwa [List.append_assoc] at hx

theorem AllLicensed.concat {L : List (Event S) → S.Op → Prop} {l t : List (Event S)} {x : Event S}
    (h : AllLicensed L l t) (hx : L (l ++ t) x.1) : AllLicensed L l (t ++ [x]) := by
  induction t generalizing l with
  | nil =>
    rw [List.append_nil] at hx
    exact ⟨hx, trivial⟩
  | cons y t ih =>
    refine ⟨h.1, ih h.2 ?_⟩
    rwa [List.append_assoc]

/-- At most one call of a thread is made without a reply that it has received. -/
theorem Thread.length_made_le_received (th : Thread S α) :
    th.made.length ≤ th.received.length + 1 := by
  obtain ⟨l, p | ⟨e, k⟩ | ⟨e, k, r⟩⟩ := th <;> simp [made]

/-- If a program makes only calls that are licensed, however it ends, then so does the thread that runs it,
by the replies that it has received. -/
theorem Reachable.licensed [∀ e, Nonempty (S.Reply e)] (h : Reachable E (.start prog s) P) {i : ι}
    {L : List (Event S) → S.Op → Prop} (hL : ∀ t x, Ends (prog i) t x → AllLicensed L [] t)
    {l₁ l₂ : List S.Op} {c : S.Op} (hmade : (P.thread i).made = l₁ ++ c :: l₂) :
    L ((P.thread i).received.take l₁.length) c := by
  obtain ⟨t, x, hends, hpre⟩ := h.exists_ends i
  have hlen : l₁.length ≤ (P.thread i).received.length := by
    have hm := congrArg List.length hmade
    have hle := (P.thread i).length_made_le_received
    rw [List.length_append, List.length_cons] at hm
    omega
  rw [Thread.answered, List.append_assoc] at hends hpre
  generalize (P.thread i).received = l at *
  generalize _ ++ t = t' at *
  obtain ⟨l₃, hl₃⟩ := hpre
  rw [hmade, List.append_assoc, List.cons_append] at hl₃
  obtain ⟨t₁, t₂, ht, ht₁, ht₂⟩ := List.map_eq_append_iff.1 hl₃.symm
  obtain ⟨y, t₃, rfl, rfl, -⟩ := List.map_eq_cons_iff.1 ht₂
  have hlen₁ : t₁.length = l₁.length := by rw [← ht₁, List.length_map]
  have htake : l.take l₁.length = t₁ := by
    rw [← @List.take_append_of_le_length _ _ t' _ hlen, ht, ← hlen₁, List.take_left]
  rw [ht] at hends
  have hy := (hL _ _ hends).of_append
  rwa [htake]

/-! ## Invariants of the environment -/

/-- What every reply and every step of its own preserves holds in the environment of every pool that
is reached. -/
theorem Reachable.env_induction {I : σ → Prop} {P₀ : Pool S α ι σ} (h : Reachable E P₀ P)
    (h₀ : I P₀.env) (hreply : ∀ {s e r s'}, I s → E.reply s e r s' → I s')
    (hidle : ∀ {s s'}, I s → E.idle s s' → I s') : I P.env := by
  induction h with
  | refl => exact h₀
  | step _ hs ih =>
    rcases hs.cases_answered with ⟨he | he, -⟩ | ⟨i, e, r, he, -, -⟩
    · rwa [he]
    · exact hidle ih he
    · exact hreply ih he

/-- What every reply makes true of its call, and no later step makes untrue, holds of everything that a
thread has been answered. -/
theorem Reachable.forall_answered {K : σ → Event S → Prop} (h : Reachable E (.start prog s) P)
    (hreply : ∀ {s e r s'}, E.reply s e r s' → K s' ⟨e, r⟩ ∧ ∀ x, K s x → K s' x)
    (hidle : ∀ {s s'}, E.idle s s' → ∀ x, K s x → K s' x) (i : ι) :
    ∀ x ∈ (P.thread i).answered, K P.env x := by
  induction h with
  | refl => exact fun x hx => absurd hx List.not_mem_nil
  | step _ hs ih =>
    rcases hs.cases_answered with ⟨he | he, hall⟩ | ⟨j, e, r, hr, hj, hne⟩
    · rwa [he, hall i]
    · rw [hall i]
      exact fun x hx => hidle he x (ih x hx)
    · obtain ⟨hnew, hkeep⟩ := hreply hr
      by_cases hij : i = j
      · rw [hij, hj]
        rw [hij] at ih
        intro x hx
        rcases List.mem_append.1 hx with hx | hx
        · exact hkeep x (ih x hx)
        · rwa [List.mem_singleton.1 hx]
      · rw [hne i hij]
        exact fun x hx => hkeep x (ih x hx)

section

variable [AddCommMonoid A] [PartialOrder A] [IsOrderedAddMonoid A]

/-- The environment pays the cost of each reply out of its state, and never loses. -/
structure Env.Pays (E : Env S σ) (cost : Event S → A) (total : σ → A) : Prop where
  nonneg : ∀ x, 0 ≤ cost x
  reply : ∀ {s e r s'}, E.reply s e r s' → total s + cost ⟨e, r⟩ ≤ total s'
  idle : ∀ {s s'}, E.idle s s' → total s ≤ total s'

/-- The cost of what a thread has been answered. -/
def Thread.cost (cost : Event S → A) (th : Thread S α) : A := (th.answered.map cost).sum

/-- What some threads together have been answered is paid for. -/
theorem Reachable.sum_cost_le {cost : Event S → A} {total : σ → A} (hE : E.Pays cost total)
    (h : Reachable E (.start prog s) P) (F : Finset ι) :
    total s + ∑ i ∈ F, (P.thread i).cost cost ≤ total P.env := by
  induction h with
  | refl => simp [Pool.start, Thread.cost, Thread.answered]
  | @step Q R _ hs ih =>
    rcases hs.cases_answered with ⟨he, hall⟩ | ⟨i, e, r, he, hi, hne⟩
    · have hsum : ∑ i ∈ F, (R.thread i).cost cost = ∑ i ∈ F, (Q.thread i).cost cost :=
        Finset.sum_congr rfl fun i _ => by rw [Thread.cost, Thread.cost, hall i]
      rw [hsum]
      rcases he with he | he
      · rwa [he]
      · exact ih.trans (hE.idle he)
    · have hcost : (R.thread i).cost cost = (Q.thread i).cost cost + cost ⟨e, r⟩ := by
        rw [Thread.cost, hi, List.map_append, List.sum_append, List.map_singleton,
          List.sum_singleton, Thread.cost]
      have hothers : ∀ j ∈ F, j ≠ i → (R.thread j).cost cost = (Q.thread j).cost cost :=
        fun j _ hj => by rw [Thread.cost, Thread.cost, hne j hj]
      by_cases hF : i ∈ F
      · have hrest : ∑ j ∈ F.erase i, (R.thread j).cost cost =
            ∑ j ∈ F.erase i, (Q.thread j).cost cost :=
          Finset.sum_congr rfl fun j hj =>
            hothers j (Finset.mem_of_mem_erase hj) (Finset.ne_of_mem_erase hj)
        calc total s + ∑ j ∈ F, (R.thread j).cost cost
            = total s + ∑ j ∈ F, (Q.thread j).cost cost + cost ⟨e, r⟩ := by
              rw [← Finset.sum_erase_add F _ hF, hrest, hcost, ← Finset.sum_erase_add F _ hF]
              simp only [add_assoc]
          _ ≤ total Q.env + cost ⟨e, r⟩ := add_le_add_left ih _
          _ ≤ total R.env := hE.reply he
      · have hsum : ∑ j ∈ F, (R.thread j).cost cost = ∑ j ∈ F, (Q.thread j).cost cost :=
          Finset.sum_congr rfl fun j hj => hothers j hj fun h => hF (h ▸ hj)
        calc total s + ∑ j ∈ F, (R.thread j).cost cost
            ≤ total Q.env := by rwa [hsum]
          _ ≤ total Q.env + cost ⟨e, r⟩ := le_add_of_nonneg_right (hE.nonneg _)
          _ ≤ total R.env := hE.reply he

end

end Interaction
