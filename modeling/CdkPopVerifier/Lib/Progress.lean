import CdkPopVerifier.Lib.Concurrent

/-!
# Every thread of a pool ends

A thread that has not ended can make a step whenever the environment has a reply to every call, and
every step of a thread brings it closer to the end of its longest run.  So in a fair execution, one
that does not pass over a thread forever, every thread returns or panics, whatever the others do and
however many there are.
-/

namespace Interaction

variable {S : Sig} {α ι σ : Type} [DecidableEq ι]

/-- The thread has returned. -/
def Thread.Finished (th : Thread S α) : Prop := ∃ a, th.phase = .running (.ret a)

/-- The thread has panicked. -/
def Thread.Panicked (th : Thread S α) : Prop := th.phase = .running .panic

/-- The thread has returned or panicked. -/
def Thread.Ended (th : Thread S α) : Prop := th.Finished ∨ th.Panicked

/-- The number of steps that a thread has made: three for each call it has received a reply to. -/
def Thread.progress (th : Thread S α) : ℕ :=
  3 * th.received.length +
    match th.phase with
    | .running _ => 0
    | .waiting _ _ => 1
    | .replied _ _ _ => 2

/-- An endless execution: each pool is the one before it or is one step further. -/
structure Execution (E : Env S σ) (P : Pool S α ι σ) (f : ℕ → Pool S α ι σ) : Prop where
  start : f 0 = P
  step : ∀ n, f (n + 1) = f n ∨ Step E (f n) (f (n + 1))

/-- No thread is passed over forever. -/
def Fair (f : ℕ → Pool S α ι σ) : Prop :=
  ∀ i n, ∃ m, n ≤ m ∧ (((f m).thread i).Ended ∨ (f (m + 1)).thread i ≠ (f m).thread i)

variable {E : Env S σ} {prog : ι → Prog S α} {s : σ} {P Q : Pool S α ι σ} {f : ℕ → Pool S α ι σ}

/-! ## Steps -/

/-- A step leaves a thread alone or is a step of this thread. -/
theorem Step.progress_eq (h : Step E P Q) (i : ι) : Q.thread i = P.thread i ∨
    (Q.thread i).progress = (P.thread i).progress + 1 := by
  have hset {j : ι} {th : Thread S α} (hth : th.progress = (P.thread j).progress + 1) :
      (P.set j th).thread i = P.thread i ∨
        ((P.set j th).thread i).progress = (P.thread i).progress + 1 := by
    by_cases hi : i = j
    · subst hi
      rw [Pool.set_thread_self]
      exact .inr hth
    · exact .inl (Pool.set_thread_of_ne P hi th)
  cases h with
  | send h =>
    apply hset
    rw [h]
    rfl
  | serve h hr =>
    apply hset
    rw [h]
    rfl
  | receive h =>
    apply hset
    rw [h, Thread.progress, Thread.progress, List.length_append]
    rfl
  | idle h => exact .inl rfl

/-- A thread that has not ended can make a step. -/
theorem exists_step_of_not_ended (hE : ∀ s e, ∃ r s', E.reply s e r s') {i : ι}
    (h : ¬ (P.thread i).Ended) : ∃ Q, Step E P Q ∧ Q.thread i ≠ P.thread i := by
  have hne {th : Thread S α} (hth : th.phase ≠ (P.thread i).phase) :
      (P.set i th).thread i ≠ P.thread i := by
    rw [Pool.set_thread_self]
    exact fun he => hth (congrArg Thread.phase he)
  rcases hi : P.thread i with ⟨l, (a | _ | ⟨e, k⟩) | ⟨e, k⟩ | ⟨e, k, r⟩⟩ <;> rw [hi] at hne h
  · exact absurd (.inl ⟨a, rfl⟩) h
  · exact absurd (.inr rfl) h
  · exact ⟨_, .send hi, hne fun he => by cases he⟩
  · obtain ⟨r, s', hr⟩ := hE P.env e
    exact ⟨_, .serve hi hr, hne fun he => by cases he⟩
  · exact ⟨_, .receive hi, hne fun he => by cases he⟩

/-- A thread that has ended makes no step. -/
theorem Step.thread_eq_of_ended (hs : Step E P Q) {i : ι} (h : (P.thread i).Ended) :
    Q.thread i = P.thread i := by
  have hset {j : ι} {th : Thread S α} (hj : ¬ (P.thread j).Ended) :
      (P.set j th).thread i = P.thread i := by
    apply Pool.set_thread_of_ne
    rintro rfl
    exact hj h
  have hphase {j : ι} {l : List (Event S)} {ph : Phase S α} (hj : P.thread j = ⟨l, ph⟩)
      (hret : ∀ a, ph ≠ .running (.ret a)) (hpanic : ph ≠ .running .panic) : ¬ (P.thread j).Ended := by
    rw [hj]
    rintro (⟨a, ha⟩ | ha)
    · exact hret a ha
    · exact hpanic ha
  cases hs with
  | send hj => exact hset (hphase hj (fun a h => by cases h) fun h => by cases h)
  | serve hj hr => exact hset (hphase hj (fun a h => by cases h) fun h => by cases h)
  | receive hj => exact hset (hphase hj (fun a h => by cases h) fun h => by cases h)
  | idle h => rfl

/-- A thread makes at most three steps for each call of its longest run. -/
theorem Reachable.progress_le [∀ e, Nonempty (S.Reply e)] (h : Reachable E (.start prog s) P) {i : ι}
    {n : ℕ} (hn : ∀ t x, Ends (prog i) t x → t.length ≤ n) : (P.thread i).progress ≤ 3 * n := by
  have hpath := h.path i
  generalize P.thread i = th at hpath
  have hle {p : Prog S α} (hp : Path (prog i) th.received p) :
      ∃ t x, Ends p t x ∧ th.received.length + t.length ≤ n := by
    obtain ⟨t, x, ht⟩ := Interaction.exists_ends p
    have hlen := hn _ _ (hp.ends_append ht)
    rw [List.length_append] at hlen
    exact ⟨t, x, ht, hlen⟩
  obtain ⟨l, p | ⟨e, k⟩ | ⟨e, k, r⟩⟩ := th
  · obtain ⟨t, x, -, hlen⟩ := hle hpath
    simp only [Thread.progress] at hlen ⊢
    omega
  all_goals
    obtain ⟨t, x, ht, hlen⟩ := hle hpath
    obtain ⟨r, t', rfl, -⟩ := ends_call_iff.1 ht
    simp only [Thread.progress, List.length_cons] at hlen ⊢
    omega

/-! ## Executions -/

theorem Execution.reachable (hf : Execution E P f) (n : ℕ) : Reachable E P (f n) := by
  induction n with
  | zero =>
    rw [hf.start]
    exact .refl
  | succ n ih =>
    rcases hf.step n with h | h
    · rwa [h]
    · exact ih.step h

theorem Execution.progress_mono (hf : Execution E P f) (i : ι) {n m : ℕ} (h : n ≤ m) :
    ((f n).thread i).progress ≤ ((f m).thread i).progress := by
  induction h with
  | refl => exact le_rfl
  | @step m _ ih =>
    refine ih.trans ?_
    rcases hf.step m with hs | hs
    · exact (congrArg (fun P => (P.thread i).progress) hs).ge
    · rcases hs.progress_eq i with he | he
      · exact (congrArg Thread.progress he).ge
      · exact he ▸ Nat.le_succ _

theorem Execution.thread_eq_of_ended (hf : Execution E P f) {i : ι} {m n : ℕ} (hmn : m ≤ n)
    (h : ((f m).thread i).Ended) : (f m).thread i = (f n).thread i := by
  induction hmn with
  | refl => rfl
  | step _ ih =>
    rcases hf.step _ with hs | hs
    · rw [hs]
      exact ih
    · rw [ih, hs.thread_eq_of_ended (ih ▸ h)]

/-- A thread ends in one way. -/
theorem Execution.phase_eq_of_ended (hf : Execution E P f) {i : ι} {m n : ℕ}
    (hm : ((f m).thread i).Ended) (hn : ((f n).thread i).Ended) :
    ((f m).thread i).phase = ((f n).thread i).phase := by
  rw [hf.thread_eq_of_ended (le_max_left m n) hm, hf.thread_eq_of_ended (le_max_right m n) hn]

/-- In a fair execution every thread whose runs are bounded ends. -/
theorem Execution.exists_ended [∀ e, Nonempty (S.Reply e)] (hf : Execution E (.start prog s) f)
    (hfair : Fair f) {i : ι} {n : ℕ} (hn : ∀ t x, Ends (prog i) t x → t.length ≤ n) :
    ∃ m, ((f m).thread i).Ended := by
  by_contra hno
  -- otherwise the thread makes steps without end
  have hgrow : ∀ k, ∃ m, k ≤ ((f m).thread i).progress := by
    intro k
    induction k with
    | zero => exact ⟨0, Nat.zero_le _⟩
    | succ k ih =>
      obtain ⟨m, hm⟩ := ih
      obtain ⟨m', hle, hfin | hne⟩ := hfair i m
      · exact absurd ⟨m', hfin⟩ hno
      · have hmono := hf.progress_mono i hle
        rcases hf.step m' with hs | hs
        · exact absurd (congrArg (fun P => P.thread i) hs) hne
        · have hstep := (hs.progress_eq i).resolve_left hne
          exact ⟨m' + 1, by omega⟩
  obtain ⟨m, hm⟩ := hgrow (3 * n + 1)
  have hle := (hf.reachable m).progress_le hn
  omega

/-- An execution that stops can go on to every pool that is reached from there. -/
theorem Execution.exists_of_reachable {R : Pool S α ι σ} (hf : Execution E P f) {n : ℕ}
    (hn : ∀ m, n ≤ m → f m = Q) (h : Reachable E Q R) :
    ∃ (g : ℕ → Pool S α ι σ) (k : ℕ), Execution E P g ∧ n ≤ k ∧ (∀ m, m ≤ n → g m = f m) ∧
      ∀ m, k ≤ m → g m = R := by
  induction h with
  | refl => exact ⟨f, n, hf, le_rfl, fun _ _ => rfl, hn⟩
  | @step R R' _ hs ih =>
    obtain ⟨g, k, hg, hnk, hgf, hk⟩ := ih
    refine ⟨fun m => if m ≤ k then g m else R', k + 1, ⟨?_, fun m => ?_⟩, hnk.trans (Nat.le_succ k),
      fun m hm => ?_, fun m hm => ?_⟩
    · exact (if_pos (Nat.zero_le k)).trans hg.start
    · rcases lt_trichotomy m k with hlt | rfl | hgt
      · rw [if_pos (Nat.succ_le_of_lt hlt), if_pos hlt.le]
        exact hg.step m
      · rw [if_pos le_rfl, if_neg (Nat.not_succ_le_self m), hk m le_rfl]
        exact .inr hs
      · rw [if_neg (by omega), if_neg (by omega)]
        exact .inl rfl
    · exact (if_pos (hm.trans hnk)).trans (hgf m hm)
    · exact if_neg (by omega)

/-- Every pool that is reached is reached by an execution that stops there. -/
theorem Reachable.exists_execution (h : Reachable E P Q) :
    ∃ (f : ℕ → Pool S α ι σ) (n : ℕ), Execution E P f ∧ ∀ m, n ≤ m → f m = Q := by
  have hstart : Execution E P fun _ => P := ⟨rfl, fun _ => .inl rfl⟩
  obtain ⟨f, n, hf, -, -, hn⟩ := hstart.exists_of_reachable (n := 0) (fun _ _ => rfl) h
  exact ⟨f, n, hf, hn⟩

omit [DecidableEq ι] in
/-- An execution that stops when every thread has ended is fair. -/
theorem fair_of_ended {n : ℕ} (hn : ∀ m, n ≤ m → f m = Q) (hQ : ∀ i, (Q.thread i).Ended) :
    Fair f :=
  fun i k => ⟨max n k, le_max_right n k, .inl (hn _ (le_max_left n k) ▸ hQ i)⟩

end Interaction
