import CdkPopVerifier.Lib.Progress
import CdkPopVerifier.Lib.Refinement

/-!
# Executions one thread at a time

A call is independent if no reply to it depends on the state of the environment or changes it.  If no
run of a thread has two calls that are not, then the calls of each thread can be moved together: the
environment gets where it gets when the threads are served one after the other, each of them with the
replies that it has received.  A thread that is not served any more comes before those that have not
been served yet.
-/

namespace Interaction

variable {S T : Sig} {α ι σ τ : Type}

/-! ## Threads that are served one after the other -/

/-- No reply to the call depends on the state or changes it. -/
def Env.Independent (E : Env S σ) (e : S.Op) : Prop :=
  ∀ s r s', E.reply s e r s' → s' = s ∧ ∀ u, E.reply u e r u

/-- The threads of a list are served one after the other, each of them all of its calls; between two
threads the environment can take steps of its own. -/
inductive Env.Serial (E : Env S σ) (h : ι → List (Event S)) : σ → List ι → σ → Prop
  | nil (s : σ) : Env.Serial E h s [] s
  | idle {s s' s'' : σ} {l : List ι} (hs : E.idle s s') (hl : Env.Serial E h s' l s'') :
    Env.Serial E h s l s''
  | thread {s s' s'' : σ} {i : ι} {l : List ι} (hi : E.Serves s (h i) s')
      (hl : Env.Serial E h s' l s'') : Env.Serial E h s (i :: l) s''

variable {E : Env S σ} {h h' : ι → List (Event S)} {s s' s'' : σ} {t t' : List (Event S)}
  {l l₁ l₂ : List ι} {i : ι}

theorem Env.Serves.append (ht : E.Serves s t s') (ht' : E.Serves s' t' s'') :
    E.Serves s (t ++ t') s'' := by
  induction ht with
  | nil => exact ht'
  | cons hr _ ih => exact .cons hr (ih ht')

/-- Independent calls can be served in any state. -/
theorem Env.Serves.of_independent (ht : E.Serves s t s') (hE : ∀ x ∈ t, E.Independent x.1) :
    s' = s ∧ ∀ u, E.Serves u t u := by
  induction ht with
  | nil => exact ⟨rfl, fun u => .nil u⟩
  | @cons s s' s'' e r t hr ht ih =>
    rw [List.forall_mem_cons] at hE
    obtain ⟨hs, hu⟩ := hE.1 s r s' hr
    obtain ⟨hs', hu'⟩ := ih hE.2
    exact ⟨hs'.trans hs, fun u => .cons (hu u) (hu' u)⟩

theorem Env.Serial.congr (hl : E.Serial h s l s') (hh : ∀ i ∈ l, h i = h' i) :
    E.Serial h' s l s' := by
  induction hl with
  | nil s => exact .nil s
  | idle hs _ ih => exact .idle hs (ih hh)
  | thread hi _ ih =>
    rw [List.forall_mem_cons] at hh
    rw [hh.1] at hi
    exact .thread hi (ih hh.2)

theorem Env.Serial.append (h₁ : E.Serial h s l₁ s') (h₂ : E.Serial h s' l₂ s'') :
    E.Serial h s (l₁ ++ l₂) s'' := by
  induction h₁ with
  | nil => exact h₂
  | idle hs _ ih => exact .idle hs (ih h₂)
  | thread hi _ ih => exact .thread hi (ih h₂)

theorem Env.Serial.exists_of_append_cons (hl : E.Serial h s (l₁ ++ i :: l₂) s') :
    ∃ u v, E.Serial h s l₁ u ∧ E.Serves u (h i) v ∧ E.Serial h v l₂ s' := by
  generalize hl' : l₁ ++ i :: l₂ = l at hl
  induction hl generalizing l₁ with
  | nil => exact absurd hl' (List.append_ne_nil_of_right_ne_nil _ (List.cons_ne_nil _ _))
  | idle hs _ ih =>
    obtain ⟨u, v, h₁, hi, h₂⟩ := ih hl'
    exact ⟨u, v, .idle hs h₁, hi, h₂⟩
  | @thread s u s' j l hj hrest ih =>
    cases l₁ with
    | nil =>
      cases hl'
      exact ⟨s, u, .nil s, hj, hrest⟩
    | cons k l₁ =>
      rw [List.cons_append, List.cons.injEq] at hl'
      obtain ⟨rfl, hl'⟩ := hl'
      obtain ⟨u', v, h₁, hi, h₂⟩ := ih hl'
      exact ⟨u', v, .thread hj h₁, hi, h₂⟩

/-! ## The calls of a thread moved together -/

/-- No two calls of `t` depend on the state. -/
def Env.Reducible (E : Env S σ) (t : List (Event S)) : Prop :=
  t.Pairwise fun x y => E.Independent x.1 ∨ E.Independent y.1

/-- The pool is reached from `s` by serving the threads of `l` one after the other. -/
structure Serialized (E : Env S σ) (s : σ) (P : Pool S α ι σ) (l : List ι) : Prop where
  nodup : l.Nodup
  mem_iff : ∀ i, i ∈ l ↔ (P.thread i).answered ≠ []
  serial : E.Serial (fun i => (P.thread i).answered) s l P.env

/-- From `P` to `Q`, a thread that is not served stays before the threads that it was before, and it is
before the threads that are served for the first time. -/
def KeepsOrder (P Q : Pool S α ι σ) (l l' : List ι) : Prop :=
  ∀ i j, (Q.thread i).answered = (P.thread i).answered → i ∈ l →
    [i, j].Sublist l ∨ j ∉ l ∧ j ∈ l' → [i, j].Sublist l'

theorem KeepsOrder.refl (P Q : Pool S α ι σ) (l : List ι) : KeepsOrder P Q l l := by
  rintro i j - - (h | ⟨hj, hj'⟩)
  · exact h
  · exact absurd hj' hj

section

variable [DecidableEq ι]

/-- A thread without dependent calls can be taken out. -/
theorem Env.Serial.erase (hl : E.Serial h s l s') (hi : ∀ x ∈ h i, E.Independent x.1) :
    E.Serial h s (l.erase i) s' := by
  induction hl with
  | nil s => exact .nil s
  | idle hs _ ih => exact .idle hs ih
  | @thread s u s' j l hj hrest ih =>
    by_cases hji : j = i
    · subst hji
      rw [List.erase_cons_head]
      obtain ⟨rfl, -⟩ := hj.of_independent hi
      exact hrest
    · rw [List.erase_cons_tail (by simpa using hji)]
      exact .thread hj ih

variable {P Q R : Pool S α ι σ} {prog : ι → Prog S α} {l' : List ι}

/-- The thread that is served goes to the end. -/
theorem keepsOrder_erase_append (hne : (Q.thread i).answered ≠ (P.thread i).answered) :
    KeepsOrder P Q l (l.erase i ++ [i]) := by
  intro k j hk hmem hj
  have hki : k ≠ i := by
    rintro rfl
    exact hne hk
  have hmem' : k ∈ l.erase i := (List.mem_erase_of_ne hki).2 hmem
  by_cases hji : j = i
  · subst hji
    exact (List.singleton_sublist.2 hmem').append (List.Sublist.refl [j])
  · rcases hj with hj | ⟨hj, hj'⟩
    · have herase := hj.erase i
      have hnot : i ∉ [k, j] := by
        simp [Ne.symm hki, Ne.symm hji]
      rw [List.erase_of_not_mem hnot] at herase
      exact List.sublist_append_of_sublist_left herase
    · rcases List.mem_append.1 hj' with hj' | hj'
      · exact absurd (List.mem_of_mem_erase hj') hj
      · exact absurd (List.mem_singleton.1 hj') hji

/-- One more thread is served, or one thread is served once more: an independent call stays where the
thread is, and any other call takes the thread to the end. -/
theorem Serialized.exists_of_answered (hl : Serialized E s P l) {e : S.Op} {r : S.Reply e}
    (hr : E.reply P.env e r Q.env) (hi : (Q.thread i).answered = (P.thread i).answered ++ [⟨e, r⟩])
    (hne : ∀ j, j ≠ i → (Q.thread j).answered = (P.thread j).answered)
    (hred : E.Reducible (Q.thread i).answered) :
    ∃ l', Serialized E s Q l' ∧ KeepsOrder P Q l l' := by
  have hchanged : (Q.thread i).answered ≠ (P.thread i).answered := by
    rw [hi]
    simp
  have hserved : (Q.thread i).answered ≠ [] := by
    rw [hi]
    simp
  have hmem (j : ι) (hj : j ≠ i) : j ∈ l ↔ (Q.thread j).answered ≠ [] := by
    rw [hne j hj]
    exact hl.mem_iff j
  by_cases hcase : i ∈ l ∧ E.Independent e
  · obtain ⟨hil, he⟩ := hcase
    obtain ⟨l₁, l₂, rfl⟩ := List.append_of_mem hil
    obtain ⟨u, v, h₁, hserves, h₂⟩ := hl.serial.exists_of_append_cons
    obtain ⟨henv, hany⟩ := he _ _ _ hr
    have hnot (k : ι) (hk : k ∈ l₁ ∨ k ∈ l₂) : k ≠ i := by
      rintro rfl
      have hnodup := hl.nodup
      rw [List.nodup_middle, List.nodup_cons, List.mem_append] at hnodup
      exact hnodup.1 hk
    refine ⟨_, ⟨hl.nodup, fun j => ?_, ?_⟩, .refl P Q _⟩
    · by_cases hj : j = i
      · rw [hj]
        exact iff_of_true hil hserved
      · exact hmem j hj
    · rw [henv]
      refine (h₁.congr fun k hk => (hne k (hnot k (.inl hk))).symm).append (.thread ?_
        (h₂.congr fun k hk => (hne k (hnot k (.inr hk))).symm))
      rw [hi]
      exact hserves.append (.cons (hany v) (.nil v))
  · have hindep : ∀ x ∈ (P.thread i).answered, E.Independent x.1 := by
      intro x hx
      rw [Env.Reducible, hi, List.pairwise_append] at hred
      by_contra hno
      have he : E.Independent e := (hred.2.2 x hx _ List.mem_cons_self).resolve_left hno
      exact hcase ⟨(hl.mem_iff i).2 (List.ne_nil_of_mem hx), he⟩
    have hany (u : σ) : E.Serves u (P.thread i).answered u := by
      by_cases hil : i ∈ l
      · obtain ⟨l₁, l₂, rfl⟩ := List.append_of_mem hil
        obtain ⟨w, v, -, hserves, -⟩ := hl.serial.exists_of_append_cons
        exact (hserves.of_independent hindep).2 u
      · rw [not_not.1 (mt (hl.mem_iff i).2 hil)]
        exact .nil u
    refine ⟨l.erase i ++ [i], ⟨?_, fun j => ?_, ?_⟩, keepsOrder_erase_append hchanged⟩
    · exact (hl.nodup.erase i).append (List.nodup_singleton i) (by simp [hl.nodup.not_mem_erase])
    · rw [List.mem_append, List.mem_singleton]
      by_cases hj : j = i
      · rw [hj]
        exact iff_of_true (.inr rfl) hserved
      · rw [or_iff_left hj, List.mem_erase_of_ne hj]
        exact hmem j hj
    · refine ((hl.serial.erase hindep).congr fun j hj => ?_).append (.thread ?_ (.nil _))
      · exact (hne j fun h => hl.nodup.not_mem_erase (h ▸ hj)).symm
      · rw [hi]
        exact (hany _).append (.cons hr (.nil _))

theorem Serialized.exists_of_step (hl : Serialized E s P l) (hs : Step E P Q)
    (hred : ∀ i, E.Reducible (Q.thread i).answered) :
    ∃ l', Serialized E s Q l' ∧ KeepsOrder P Q l l' := by
  rcases hs.cases_answered with ⟨henv, hsame⟩ | ⟨i, e, r, hr, hi, hne⟩
  · have hserial := hl.serial.congr fun i _ => (hsame i).symm
    refine ⟨l, ⟨hl.nodup, fun i => ?_, ?_⟩, .refl P Q l⟩
    · rw [hsame i]
      exact hl.mem_iff i
    · rcases henv with henv | hidle
      · rw [henv]
        exact hserial
      · have hend := hserial.append (.idle hidle (.nil _))
        rwa [List.append_nil] at hend
  · exact hl.exists_of_answered hr hi hne (hred i)

/-- What a thread has been answered only grows. -/
theorem Reachable.answered_grows (h : Reachable E P Q) (i : ι) :
    (P.thread i).answered <+: (Q.thread i).answered := by
  induction h with
  | refl => exact List.prefix_rfl
  | step _ hs ih =>
    refine ih.trans ?_
    rcases hs.cases_answered with ⟨-, hsame⟩ | ⟨j, e, r, -, hj, hne⟩
    · rw [hsame i]
    · by_cases hij : i = j
      · rw [hij, hj]
        exact List.prefix_append _ _
      · rw [hne i hij]

/-- What a thread has been answered is reducible if its runs and its panics are. -/
theorem Reachable.reducible [∀ e, Nonempty (S.Reply e)] (h : Reachable E (.start prog s) P)
    (hprog : ∀ i t x, Ends (prog i) t x → E.Reducible t) (i : ι) :
    E.Reducible (P.thread i).answered := by
  obtain ⟨t, x, hends, -⟩ := h.exists_ends i
  exact (List.pairwise_append.1 (hprog i _ x hends)).1

/-- On the way from one pool to another, the order keeps the threads that are not served any more. -/
theorem Serialized.exists_of_reachable [∀ e, Nonempty (S.Reply e)] (hl : Serialized E s P l)
    (hprog : ∀ i t x, Ends (prog i) t x → E.Reducible t) (hP : Reachable E (.start prog s) P)
    (h : Reachable E P Q) : ∃ l', Serialized E s Q l' ∧ KeepsOrder P Q l l' := by
  induction h with
  | refl => exact ⟨l, hl, .refl P P l⟩
  | @step Q R hPQ hs ih =>
    obtain ⟨l', hl', hkeep⟩ := ih
    have hR := (hP.trans hPQ).step hs
    obtain ⟨l'', hl'', hkeep'⟩ := hl'.exists_of_step hs (hR.reducible hprog)
    refine ⟨l'', hl'', fun i j hi hmem hj => ?_⟩
    have hle := hPQ.answered_grows i
    have hle' := (Reachable.refl.step hs).answered_grows i
    rw [hi] at hle'
    have hQ : (Q.thread i).answered = (P.thread i).answered := hle'.eq_of_length_le hle.length_le
    have hmem' : i ∈ l' := by
      rw [hl'.mem_iff, hQ]
      exact (hl.mem_iff i).1 hmem
    apply hkeep' i j (hi.trans hQ.symm) hmem'
    rcases hj with hj | ⟨hj, hj''⟩
    · exact .inl (hkeep i j hQ hmem (.inl hj))
    · by_cases hj' : j ∈ l'
      · exact .inl (hkeep i j hQ hmem (.inr ⟨hj, hj'⟩))
      · exact .inr ⟨hj', hj''⟩

/-! ## Executions of the implemented programs -/

variable {f : ℕ → Pool S α ι σ} {m n k : ℕ}

/-- A thread that is the same at two times is the same between them. -/
theorem Execution.thread_eq_of_le (hf : Execution E P f) (hmk : m ≤ k) (hkn : k ≤ n)
    (h : (f m).thread i = (f n).thread i) : (f k).thread i = (f n).thread i := by
  induction n, hkn using Nat.le_induction with
  | base => rfl
  | succ n hkn ih =>
    have hm := hf.progress_mono i (hmk.trans hkn)
    rw [h] at hm
    have hn : (f (n + 1)).thread i = (f n).thread i := by
      rcases hf.step n with hs | hs
      · rw [hs]
      · rcases hs.progress_eq i with hi | hi
        · exact hi
        · omega
    rw [hn] at h ⊢
    exact ih h

/-- A thread that has made no call is at the start. -/
theorem Reachable.thread_eq_of_made_nil (h : Reachable E (.start prog s) P)
    (hi : (P.thread i).made = []) : P.thread i = ⟨[], .running (prog i)⟩ := by
  have hpath := h.path i
  generalize P.thread i = th at hi hpath
  obtain ⟨l, p | ⟨e, k⟩ | ⟨e, k, r⟩⟩ := th
  · have hl : l = [] := by simpa [Thread.made] using hi
    subst hl
    generalize hl : ([] : List (Event S)) = l at hpath
    cases hpath with
    | nil => rw [hl]
    | snoc => simp at hl
  · simp [Thread.made] at hi
  · simp [Thread.made] at hi

variable {F : Env T τ} {R : τ → σ → Prop} {impl : ι → ∀ e : S.Op, Prog T (S.Reply e)} {s₀ : σ}
  {t₀ : τ} {g : ℕ → Pool T α ι τ}

/-- An execution of the implemented programs is matched by threads that are served one after the other.  A
thread that has ended comes before those that have not made a call by then. -/
theorem Refines.exists_serialized [∀ e, Nonempty (S.Reply e)] (hh : Refines E F R impl)
    (hR : R t₀ s₀) (hprog : ∀ i t x, Ends (prog i) t x → E.Reducible t)
    (hg : Execution F (.start (fun i => (prog i).interp (impl i)) t₀) g) (n : ℕ) :
    ∃ (Q : Pool S α ι σ) (l : List ι), Reachable E (.start prog s₀) Q ∧
      Matches E F R impl Q (g n) ∧ Serialized E s₀ Q l ∧
      ∀ m ≤ n, ∀ i j, ((g m).thread i).Ended → ((g m).thread j).made = [] → i ∈ l → j ∈ l →
        [i, j].Sublist l := by
  suffices ∃ (Q : Pool S α ι σ) (l : List ι), Reachable E (.start prog s₀) Q ∧
      Matches E F R impl Q (g n) ∧ Serialized E s₀ Q l ∧
      (∀ j, (g n).thread j = (g 0).thread j → (Q.thread j).answered = []) ∧
      ∀ m ≤ n, ∀ i j, (g m).thread i = (g n).thread i → (g m).thread j = (g 0).thread j → i ∈ l →
        j ∈ l → [i, j].Sublist l by
    obtain ⟨Q, l, hQ, hm, hl, -, horder⟩ := this
    refine ⟨Q, l, hQ, hm, hl, fun m hmn i j hi hj => horder m hmn i j ?_ ?_⟩
    · exact hg.thread_eq_of_ended hmn hi
    · rw [(hg.reachable m).thread_eq_of_made_nil hj, hg.start]
      rfl
  induction n with
  | zero =>
    refine ⟨.start prog s₀, [], .refl, ?_, ⟨List.nodup_nil, fun i => ?_, .nil _⟩, fun _ _ => rfl,
      fun m _ i j _ _ hi => absurd hi List.not_mem_nil⟩
    · rw [hg.start]
      exact ⟨hR, fun i => .between .nil⟩
    · exact iff_of_false List.not_mem_nil fun h => h rfl
  | succ n ih =>
    obtain ⟨Q, l, hQ, hm, hl, hnew, horder⟩ := ih
    obtain ⟨Q', hQ', hm', hsame⟩ : ∃ Q', Reachable E Q Q' ∧ Matches E F R impl Q' (g (n + 1)) ∧
        ∀ j, (g (n + 1)).thread j = (g n).thread j → Q'.thread j = Q.thread j := by
      rcases hg.step n with hs | hs
      · rw [hs]
        exact ⟨Q, .refl, hm, fun _ _ => rfl⟩
      · exact hm.step hh hs
    obtain ⟨l', hl', hkeep⟩ := hl.exists_of_reachable hprog hQ hQ'
    have hnew' (j : ι) (hj : (g (n + 1)).thread j = (g 0).thread j) : (Q'.thread j).answered = [] := by
      have hn := hg.thread_eq_of_le (Nat.zero_le n) (Nat.le_succ n) hj.symm
      rw [hsame j hn.symm]
      exact hnew j (hn.trans hj)
    refine ⟨Q', l', hQ.trans hQ', hm', hl', hnew', fun m hmn i j hi hj hil hjl => ?_⟩
    rcases Nat.le_succ_iff.1 hmn with hmn | rfl
    · have hn := hg.thread_eq_of_le hmn (Nat.le_succ n) hi
      have hQi := hsame i hn.symm
      have hil' : i ∈ l := by
        rw [hl.mem_iff, ← hQi]
        exact (hl'.mem_iff i).1 hil
      apply hkeep i j (congrArg Thread.answered hQi) hil'
      by_cases hjl' : j ∈ l
      · exact .inl (horder m hmn i j (hi.trans hn.symm) hj hil' hjl')
      · exact .inr ⟨hjl', hjl⟩
    · exact absurd (hnew' j hj) ((hl'.mem_iff j).1 hjl)

end

end Interaction
