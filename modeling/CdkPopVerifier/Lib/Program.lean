import CdkPopVerifier.Lib.Fallible
import Mathlib.Data.List.Basic
import Mathlib.Tactic.Common

/-!
# Programs that call an environment

A program over a signature `S` returns a value, panics, or makes one of the calls of `S` and continues
with the reply.  `Runs p t a` says that `p` can make exactly the calls of `t`, getting the replies
recorded there, and return `a`, and `Panics p t` that it can make them and then panic; no assumption
is made on the replies, so a statement about all runs is a statement about every environment.
`interp` replaces each call by a program over another signature, and `run` answers the calls by a
deterministic environment with a state.
-/

open Fallible

namespace Interaction

/-- A signature: the calls a program can make and the type of the reply to each. -/
structure Sig where
  Op : Type
  Reply : Op → Type

/-- A program returns, panics, or makes one call and continues with the reply. -/
inductive Prog (S : Sig) (α : Type) where
  | ret (a : α)
  | panic
  | call (e : S.Op) (k : S.Reply e → Prog S α)

/-- A call together with the reply it got. -/
abbrev Event (S : Sig) : Type := Σ e : S.Op, S.Reply e

variable {S T : Sig} {α β γ σ : Type}

namespace Prog

/-- Sequential composition. -/
def bind : Prog S α → (α → Prog S β) → Prog S β
  | .ret a, f => f a
  | .panic, _ => .panic
  | .call e k, f => .call e fun r => (k r).bind f

instance : Monad (Prog S) where
  pure := .ret
  bind := Prog.bind

@[simp] theorem call_bind (e : S.Op) (k : S.Reply e → Prog S α) (f : α → Prog S β) :
    Prog.call e k >>= f = .call e fun r => k r >>= f := rfl

theorem bind_ret (p : Prog S α) : p >>= Prog.ret = p := by
  induction p with
  | ret a => rfl
  | panic => rfl
  | call e k ih => rw [call_bind, funext ih]

theorem bind_assoc' (p : Prog S α) (f : α → Prog S β) (g : β → Prog S γ) :
    p >>= f >>= g = p >>= fun a => f a >>= g := by
  induction p with
  | ret a => rfl
  | panic => rfl
  | call e k ih =>
    simp only [call_bind]
    exact congrArg _ (funext ih)

instance : LawfulMonad (Prog S) :=
  LawfulMonad.mk' _ bind_ret (fun _ _ => rfl) bind_assoc'

/-- The program that makes one call and returns the reply. -/
def perform (e : S.Op) : Prog S (S.Reply e) := .call e .ret

/-- Replace every call by a program over another signature. -/
def interp (h : ∀ e : S.Op, Prog T (S.Reply e)) : Prog S α → Prog T α
  | .ret a => .ret a
  | .panic => .panic
  | .call e k => h e >>= fun r => (k r).interp h

theorem interp_bind (h : ∀ e : S.Op, Prog T (S.Reply e)) (p : Prog S α) (f : α → Prog S β) :
    (p >>= f).interp h = p.interp h >>= fun a => (f a).interp h := by
  induction p with
  | ret a => rfl
  | panic => rfl
  | call e k ih =>
    rw [call_bind, interp, interp, bind_assoc]
    exact bind_congr ih

end Prog

/-! ## Runs -/

/-- `Runs p t a`: the program `p` can make the calls of `t`, with the replies recorded there, and
then return `a`. -/
inductive Runs : Prog S α → List (Event S) → α → Prop
  | ret (a : α) : Runs (.ret a) [] a
  | call {e : S.Op} {k : S.Reply e → Prog S α} {t : List (Event S)} {a : α} (r : S.Reply e)
      (h : Runs (k r) t a) : Runs (.call e k) (⟨e, r⟩ :: t) a

@[simp] theorem runs_ret_iff {a b : α} {t : List (Event S)} :
    Runs (.ret a) t b ↔ t = [] ∧ b = a := by
  constructor
  · rintro ⟨⟩
    exact ⟨rfl, rfl⟩
  · rintro ⟨rfl, rfl⟩
    exact .ret _

theorem runs_call_iff {e : S.Op} {k : S.Reply e → Prog S α} {t : List (Event S)} {a : α} :
    Runs (.call e k) t a ↔ ∃ r t', t = ⟨e, r⟩ :: t' ∧ Runs (k r) t' a := by
  constructor
  · rintro ⟨⟩
    exact ⟨_, _, rfl, ‹_›⟩
  · rintro ⟨r, t', rfl, h⟩
    exact .call r h

theorem runs_perform_iff {e : S.Op} {t : List (Event S)} {r : S.Reply e} :
    Runs (Prog.perform e) t r ↔ t = [⟨e, r⟩] := by
  refine runs_call_iff.trans ?_
  constructor
  · rintro ⟨r', t', rfl, h⟩
    obtain ⟨rfl, rfl⟩ := runs_ret_iff.1 h
    rfl
  · rintro rfl
    exact ⟨r, [], rfl, .ret r⟩

theorem runs_bind_iff {p : Prog S α} {f : α → Prog S β} {t : List (Event S)} {b : β} :
    Runs (p >>= f) t b ↔ ∃ t₁ t₂ a, t = t₁ ++ t₂ ∧ Runs p t₁ a ∧ Runs (f a) t₂ b := by
  induction p generalizing t with
  | ret a =>
    constructor
    · exact fun h => ⟨[], t, a, rfl, .ret a, h⟩
    · rintro ⟨t₁, t₂, a', rfl, h₁, h₂⟩
      obtain ⟨rfl, rfl⟩ := runs_ret_iff.1 h₁
      exact h₂
  | panic =>
    constructor
    · rintro ⟨⟩
    · rintro ⟨_, _, _, _, ⟨⟩, _⟩
  | call e k ih =>
    rw [Prog.call_bind, runs_call_iff]
    constructor
    · rintro ⟨r, t', rfl, h⟩
      obtain ⟨t₁, t₂, a, rfl, h₁, h₂⟩ := (ih r).1 h
      exact ⟨⟨e, r⟩ :: t₁, t₂, a, rfl, .call r h₁, h₂⟩
    · rintro ⟨t₁, t₂, a, rfl, h₁, h₂⟩
      obtain ⟨r, t', rfl, h⟩ := runs_call_iff.1 h₁
      exact ⟨r, t' ++ t₂, rfl, (ih r).2 ⟨t', t₂, a, rfl, h, h₂⟩⟩

/-- `Implements h s t`: the calls of `t` are what the programs `h e` make for the calls of `s`, one
after the other. -/
inductive Implements (h : ∀ e : S.Op, Prog T (S.Reply e)) :
    List (Event S) → List (Event T) → Prop
  | nil : Implements h [] []
  | cons {e : S.Op} {r : S.Reply e} {s : List (Event S)} {t₁ t₂ : List (Event T)}
      (h₁ : Runs (h e) t₁ r) (h₂ : Implements h s t₂) :
      Implements h (⟨e, r⟩ :: s) (t₁ ++ t₂)

theorem implements_cons_iff {h : ∀ e : S.Op, Prog T (S.Reply e)} {e : S.Op} {r : S.Reply e}
    {s : List (Event S)} {t : List (Event T)} :
    Implements h (⟨e, r⟩ :: s) t ↔ ∃ t₁ t₂, t = t₁ ++ t₂ ∧ Runs (h e) t₁ r ∧ Implements h s t₂ := by
  constructor
  · rintro ⟨⟩
    exact ⟨_, _, rfl, ‹_›, ‹_›⟩
  · rintro ⟨t₁, t₂, rfl, h₁, h₂⟩
    exact .cons h₁ h₂

@[simp] theorem implements_nil_iff {h : ∀ e : S.Op, Prog T (S.Reply e)} {t : List (Event T)} :
    Implements h [] t ↔ t = [] := by
  constructor
  · rintro ⟨⟩
    rfl
  · rintro rfl
    exact .nil

/-- The runs of an interpreted program are the runs of the program with each call implemented. -/
theorem runs_interp_iff {h : ∀ e : S.Op, Prog T (S.Reply e)} {p : Prog S α} {t : List (Event T)}
    {a : α} : Runs (p.interp h) t a ↔ ∃ s, Runs p s a ∧ Implements h s t := by
  induction p generalizing t with
  | ret b =>
    rw [Prog.interp, runs_ret_iff]
    constructor
    · rintro ⟨rfl, rfl⟩
      exact ⟨[], .ret _, .nil⟩
    · rintro ⟨s, hs, ht⟩
      obtain ⟨rfl, rfl⟩ := runs_ret_iff.1 hs
      exact ⟨implements_nil_iff.1 ht, rfl⟩
  | panic =>
    constructor
    · rintro ⟨⟩
    · rintro ⟨_, ⟨⟩, _⟩
  | call e k ih =>
    rw [Prog.interp, runs_bind_iff]
    constructor
    · rintro ⟨t₁, t₂, r, rfl, h₁, h₂⟩
      obtain ⟨s, hs, ht⟩ := (ih r).1 h₂
      exact ⟨⟨e, r⟩ :: s, .call r hs, .cons h₁ ht⟩
    · rintro ⟨s, hs, ht⟩
      obtain ⟨r, s', rfl, hk⟩ := runs_call_iff.1 hs
      obtain ⟨t₁, t₂, rfl, h₁, h₂⟩ := implements_cons_iff.1 ht
      exact ⟨t₁, t₂, r, rfl, h₁, (ih r).2 ⟨s', hk, h₂⟩⟩

/-! ## Panics -/

/-- `Panics p t`: the program `p` can make the calls of `t`, with the replies recorded there, and then
panic. -/
inductive Panics : Prog S α → List (Event S) → Prop
  | panic : Panics .panic []
  | call {e : S.Op} {k : S.Reply e → Prog S α} {t : List (Event S)} (r : S.Reply e)
      (h : Panics (k r) t) : Panics (.call e k) (⟨e, r⟩ :: t)

/-- Where a program panics, none of its runs goes on. -/
theorem Panics.not_runs {p : Prog S α} {s t : List (Event S)} {a : α} (h : Panics p s)
    (hst : s <+: t) : ¬ Runs p t a := by
  induction h generalizing t with
  | panic => rintro ⟨⟩
  | call r _ ih =>
    intro hr
    obtain ⟨r', t', rfl, hk⟩ := runs_call_iff.1 hr
    obtain ⟨hx, hrest⟩ := List.cons_prefix_cons.1 hst
    cases hx
    exact ih hrest hk

/-- How a program can end after the calls of `t`: with a value, or with a panic. -/
def Ends (p : Prog S α) (t : List (Event S)) : Option α → Prop
  | some a => Runs p t a
  | none => Panics p t

theorem not_panics_ret {a : α} {t : List (Event S)} : ¬ Panics (.ret a) t := by
  rintro ⟨⟩

@[simp] theorem panics_panic_iff {t : List (Event S)} : Panics (.panic : Prog S α) t ↔ t = [] := by
  constructor
  · rintro ⟨⟩
    rfl
  · rintro rfl
    exact .panic

theorem panics_call_iff {e : S.Op} {k : S.Reply e → Prog S α} {t : List (Event S)} :
    Panics (.call e k) t ↔ ∃ r t', t = ⟨e, r⟩ :: t' ∧ Panics (k r) t' := by
  constructor
  · rintro ⟨⟩
    exact ⟨_, _, rfl, ‹_›⟩
  · rintro ⟨r, t', rfl, h⟩
    exact .call r h

theorem not_panics_perform {e : S.Op} {t : List (Event S)} : ¬ Panics (Prog.perform e) t := by
  intro h
  obtain ⟨_, _, -, h⟩ := panics_call_iff.1 h
  exact not_panics_ret h

theorem panics_bind_iff {p : Prog S α} {f : α → Prog S β} {t : List (Event S)} :
    Panics (p >>= f) t ↔ Panics p t ∨ ∃ t₁ t₂ a, t = t₁ ++ t₂ ∧ Runs p t₁ a ∧ Panics (f a) t₂ := by
  induction p generalizing t with
  | ret a =>
    constructor
    · exact fun h => .inr ⟨[], t, a, rfl, .ret a, h⟩
    · rintro (h | ⟨t₁, t₂, a', rfl, h₁, h₂⟩)
      · exact absurd h not_panics_ret
      · obtain ⟨rfl, rfl⟩ := runs_ret_iff.1 h₁
        exact h₂
  | panic =>
    constructor
    · exact fun h => .inl (panics_panic_iff.2 (panics_panic_iff.1 h))
    · rintro (h | ⟨_, _, _, _, ⟨⟩, _⟩)
      exact panics_panic_iff.2 (panics_panic_iff.1 h)
  | call e k ih =>
    rw [Prog.call_bind, panics_call_iff, panics_call_iff]
    constructor
    · rintro ⟨r, t', rfl, h⟩
      rcases (ih r).1 h with h | ⟨t₁, t₂, a, rfl, h₁, h₂⟩
      · exact .inl ⟨r, t', rfl, h⟩
      · exact .inr ⟨⟨e, r⟩ :: t₁, t₂, a, rfl, .call r h₁, h₂⟩
    · rintro (⟨r, t', rfl, h⟩ | ⟨t₁, t₂, a, rfl, h₁, h₂⟩)
      · exact ⟨r, t', rfl, (ih r).2 (.inl h)⟩
      · obtain ⟨r, t', rfl, h⟩ := runs_call_iff.1 h₁
        exact ⟨r, t' ++ t₂, rfl, (ih r).2 (.inr ⟨t', t₂, a, rfl, h, h₂⟩)⟩

theorem Ends.call {e : S.Op} {k : S.Reply e → Prog S α} {t : List (Event S)} {x : Option α}
    (r : S.Reply e) (h : Ends (k r) t x) : Ends (.call e k) (⟨e, r⟩ :: t) x := by
  cases x with
  | some a => exact Runs.call r h
  | none => exact Panics.call r h

theorem ends_call_iff {e : S.Op} {k : S.Reply e → Prog S α} {t : List (Event S)} {x : Option α} :
    Ends (.call e k) t x ↔ ∃ r t', t = ⟨e, r⟩ :: t' ∧ Ends (k r) t' x := by
  cases x with
  | some a => exact runs_call_iff
  | none => exact panics_call_iff

/-- Every program ends in some way, when every call has a reply. -/
theorem exists_ends [∀ e, Nonempty (S.Reply e)] (p : Prog S α) : ∃ t x, Ends p t x := by
  induction p with
  | ret a => exact ⟨[], some a, .ret a⟩
  | panic => exact ⟨[], none, .panic⟩
  | call e k ih =>
    obtain ⟨r⟩ := ‹∀ e, Nonempty (S.Reply e)› e
    obtain ⟨t, x, h⟩ := ih r
    exact ⟨⟨e, r⟩ :: t, x, .call r h⟩

/-- `Path p t q`: after the calls of `t`, with the replies recorded there, `q` is left of `p`. -/
inductive Path : Prog S α → List (Event S) → Prog S α → Prop
  | nil (p : Prog S α) : Path p [] p
  | snoc {p : Prog S α} {t : List (Event S)} {e : S.Op} {k : S.Reply e → Prog S α}
    (h : Path p t (.call e k)) (r : S.Reply e) : Path p (t ++ [⟨e, r⟩]) (k r)

theorem Path.cons {e : S.Op} {k : S.Reply e → Prog S α} {r : S.Reply e} {t : List (Event S)}
    {q : Prog S α} (h : Path (k r) t q) : Path (.call e k) (⟨e, r⟩ :: t) q := by
  induction h with
  | nil => exact (Path.nil (.call e k)).snoc r
  | snoc _ r' ih => exact ih.snoc r'

theorem Panics.path {p : Prog S α} {t : List (Event S)} (h : Panics p t) : Path p t .panic := by
  induction h with
  | panic => exact .nil _
  | call r _ ih => exact ih.cons

/-- A run gets to each of its calls. -/
theorem Runs.exists_path {p : Prog S α} {t t' : List (Event S)} {x : Event S} {a : α}
    (h : Runs p (t ++ x :: t') a) : ∃ k, Path p t (.call x.1 k) := by
  induction t generalizing p with
  | nil =>
    cases h with
    | call r _ => exact ⟨_, .nil _⟩
  | cons y t ih =>
    cases h with
    | call r h =>
      obtain ⟨k, hk⟩ := ih h
      exact ⟨k, hk.cons⟩

theorem Path.runs_append {p q : Prog S α} {t t' : List (Event S)} {a : α} (h : Path p t q)
    (hq : Runs q t' a) : Runs p (t ++ t') a := by
  induction h generalizing t' with
  | nil => exact hq
  | snoc _ r ih =>
    rw [List.append_assoc]
    exact ih (.call r hq)

theorem Path.panics_append {p q : Prog S α} {t t' : List (Event S)} (h : Path p t q)
    (hq : Panics q t') : Panics p (t ++ t') := by
  induction h generalizing t' with
  | nil => exact hq
  | snoc _ r ih =>
    rw [List.append_assoc]
    exact ih (.call r hq)

theorem Path.ends_append {p q : Prog S α} {t t' : List (Event S)} {x : Option α} (h : Path p t q)
    (hq : Ends q t' x) : Ends p (t ++ t') x := by
  cases x with
  | some a => exact h.runs_append hq
  | none => exact h.panics_append hq

theorem Path.runs {p : Prog S α} {t : List (Event S)} {a : α} (h : Path p t (.ret a)) :
    Runs p t a := by
  have hr := h.runs_append (.ret a)
  rwa [List.append_nil] at hr

theorem Path.panics {p : Prog S α} {t : List (Event S)} (h : Path p t .panic) : Panics p t := by
  have hr := h.panics_append .panic
  rwa [List.append_nil] at hr

/-- An interpreted program panics where the program does, or in the implementation of a call. -/
theorem panics_interp {h : ∀ e : S.Op, Prog T (S.Reply e)} {p : Prog S α} {t : List (Event T)}
    (hp : Panics (p.interp h) t) : (∃ s, Panics p s ∧ Implements h s t) ∨
      ∃ s e k t₁ t₂, t = t₁ ++ t₂ ∧ Path p s (.call e k) ∧ Implements h s t₁ ∧ Panics (h e) t₂ := by
  induction p generalizing t with
  | ret b => exact absurd hp not_panics_ret
  | panic =>
    obtain rfl := panics_panic_iff.1 hp
    exact .inl ⟨[], .panic, .nil⟩
  | call e k ih =>
    rcases panics_bind_iff.1 hp with he | ⟨t₁, t₂, r, rfl, h₁, h₂⟩
    · exact .inr ⟨[], e, k, [], t, rfl, .nil _, .nil, he⟩
    · rcases ih r h₂ with ⟨s, hs, ht⟩ | ⟨s, e', k', t₃, t₄, rfl, hpath, ht, he⟩
      · exact .inl ⟨⟨e, r⟩ :: s, .call r hs, .cons h₁ ht⟩
      · exact .inr ⟨⟨e, r⟩ :: s, e', k', t₁ ++ t₃, t₄, (List.append_assoc ..).symm, hpath.cons,
          .cons h₁ ht, he⟩

theorem implements_append_iff {h : ∀ e : S.Op, Prog T (S.Reply e)} {s s' : List (Event S)}
    {t : List (Event T)} : Implements h (s ++ s') t ↔
      ∃ t₁ t₂, t = t₁ ++ t₂ ∧ Implements h s t₁ ∧ Implements h s' t₂ := by
  induction s generalizing t with
  | nil =>
    constructor
    · exact fun h => ⟨[], t, rfl, .nil, h⟩
    · rintro ⟨t₁, t₂, rfl, h₁, h₂⟩
      obtain rfl := implements_nil_iff.1 h₁
      exact h₂
  | cons x s ih =>
    obtain ⟨e, r⟩ := x
    rw [List.cons_append, implements_cons_iff]
    constructor
    · rintro ⟨t₁, _, rfl, h₁, h₂⟩
      obtain ⟨t₂, t₃, rfl, h₂, h₃⟩ := ih.1 h₂
      exact ⟨t₁ ++ t₂, t₃, (List.append_assoc ..).symm, .cons h₁ h₂, h₃⟩
    · rintro ⟨_, t₃, rfl, h₁, h₃⟩
      obtain ⟨t₁, t₂, rfl, h₁, h₂⟩ := implements_cons_iff.1 h₁
      exact ⟨t₁, t₂ ++ t₃, List.append_assoc .., h₁, ih.2 ⟨t₂, t₃, rfl, h₂, h₃⟩⟩

theorem Path.panics_interp {h : ∀ e : S.Op, Prog T (S.Reply e)} {p q : Prog S α}
    {s : List (Event S)} {t t' : List (Event T)} (hp : Path p s q) (ht : Implements h s t)
    (hq : Panics (q.interp h) t') : Panics (p.interp h) (t ++ t') := by
  induction hp generalizing t t' with
  | nil =>
    obtain rfl := implements_nil_iff.1 ht
    exact hq
  | snoc _ r ih =>
    obtain ⟨t₁, _, rfl, h₁, h₂⟩ := implements_append_iff.1 ht
    obtain ⟨t₂, _, rfl, hr, hnil⟩ := implements_cons_iff.1 h₂
    obtain rfl := implements_nil_iff.1 hnil
    rw [List.append_nil, List.append_assoc]
    exact ih h₁ (panics_bind_iff.2 (.inr ⟨t₂, t', r, rfl, hr, hq⟩))

/-! ## Two signatures side by side -/

/-- The calls of `S` and the calls of `T`. -/
abbrev Sig.sum (S T : Sig) : Sig where
  Op := S.Op ⊕ T.Op
  Reply
    | .inl e => S.Reply e
    | .inr e => T.Reply e

/-- An event of `S` as an event of `S.sum T`. -/
def Event.inl (x : Event S) : Event (S.sum T) := ⟨.inl x.1, x.2⟩

/-- An event of `T` as an event of `S.sum T`. -/
def Event.inr (x : Event T) : Event (S.sum T) := ⟨.inr x.1, x.2⟩

theorem Event.inl_injective : Function.Injective (Event.inl : Event S → Event (S.sum T)) := by
  rintro ⟨e, r⟩ ⟨e', r'⟩ h
  cases (h : (⟨.inl e, r⟩ : Event (S.sum T)) = ⟨.inl e', r'⟩)
  rfl

theorem Event.inr_injective : Function.Injective (Event.inr : Event T → Event (S.sum T)) := by
  rintro ⟨e, r⟩ ⟨e', r'⟩ h
  cases (h : (⟨.inr e, r⟩ : Event (S.sum T)) = ⟨.inr e', r'⟩)
  rfl

theorem Event.inl_ne_inr {x : Event S} {y : Event T} :
    (Event.inl x : Event (S.sum T)) ≠ Event.inr y := fun h => by
  cases congrArg Sigma.fst h

theorem Event.inl_mem_map_inl_iff {x : Event S} {t : List (Event S)} :
    (Event.inl x : Event (S.sum T)) ∈ t.map Event.inl ↔ x ∈ t :=
  List.mem_map_of_injective Event.inl_injective

theorem Event.inr_notMem_map_inl {y : Event T} {t : List (Event S)} :
    (Event.inr y : Event (S.sum T)) ∉ t.map Event.inl := fun h => by
  obtain ⟨x, -, hx⟩ := List.mem_map.1 h
  exact Event.inl_ne_inr hx

/-- The event of `S` that an event of `S.sum T` is, if it is one. -/
def Event.left? : Event (S.sum T) → Option (Event S)
  | ⟨.inl e, r⟩ => some ⟨e, r⟩
  | ⟨.inr _, _⟩ => none

/-- The event of `T` that an event of `S.sum T` is, if it is one. -/
def Event.right? : Event (S.sum T) → Option (Event T)
  | ⟨.inl _, _⟩ => none
  | ⟨.inr e, r⟩ => some ⟨e, r⟩

/-- The calls of `S` among some calls of `S.sum T`. -/
def lefts (t : List (Event (S.sum T))) : List (Event S) := t.filterMap Event.left?

/-- The calls of `T` among some calls of `S.sum T`. -/
def rights (t : List (Event (S.sum T))) : List (Event T) := t.filterMap Event.right?

@[simp] theorem lefts_map_inl (t : List (Event S)) :
    lefts (t.map Event.inl : List (Event (S.sum T))) = t := by
  rw [lefts, List.filterMap_map]
  exact List.filterMap_some

@[simp] theorem rights_map_inl (t : List (Event S)) :
    rights (t.map Event.inl : List (Event (S.sum T))) = [] := by
  rw [rights, List.filterMap_map]
  exact List.filterMap_eq_nil_iff.2 fun _ _ => rfl

theorem map_inl_lefts {t : List (Event (S.sum T))} (h : rights t = []) :
    (lefts t).map Event.inl = t := by
  induction t with
  | nil => rfl
  | cons x t ih =>
    obtain ⟨e | e, r⟩ := x
    · exact congrArg (_ :: ·) (ih h)
    · cases h

@[simp] theorem rights_append_inr (t : List (Event (S.sum T))) (e : Event T) :
    rights (t ++ [e.inr]) = rights t ++ [e] := by
  rw [rights, List.filterMap_append]
  rfl

theorem lefts_append_inr (t : List (Event (S.sum T))) (e : Event T) :
    lefts (t ++ [e.inr]) = lefts t := by
  rw [lefts, List.filterMap_append]
  exact List.append_nil _

namespace Prog

/-- A call of `S` as a program over `S.sum T`. -/
def performInl (e : S.Op) : Prog (S.sum T) (S.Reply e) := @call (S.sum T) _ (.inl e) .ret

/-- A call of `T` as a program over `S.sum T`. -/
def performInr (e : T.Op) : Prog (S.sum T) (T.Reply e) := @call (S.sum T) _ (.inr e) .ret

/-- A program over `S` as a program over `S.sum T`. -/
def inl (p : Prog S α) : Prog (S.sum T) α := p.interp performInl

/-- Implement the calls of `S` and keep those of `T`. -/
def implementInl {S' : Sig} (h : ∀ e : S.Op, Prog S' (S.Reply e)) :
    ∀ e : (S.sum T).Op, Prog (S'.sum T) ((S.sum T).Reply e)
  | .inl e => (h e).inl
  | .inr e => performInr e

theorem interp_implementInl_inl {S' : Sig} (h : ∀ e : S.Op, Prog S' (S.Reply e)) (p : Prog S α) :
    (p.inl : Prog (S.sum T) α).interp (implementInl h) = (p.interp h).inl := by
  induction p with
  | ret a => rfl
  | panic => rfl
  | call e k ih =>
    have hcall : (performInl e : Prog (S.sum T) _).interp (implementInl h) = (h e).inl :=
      bind_ret (h e).inl
    rw [interp, inl, inl, interp, interp_bind, interp_bind, hcall]
    exact bind_congr ih

end Prog

theorem runs_performInl_iff {e : S.Op} {t : List (Event (S.sum T))} {r : S.Reply e} :
    Runs (Prog.performInl e) t r ↔ t = [Event.inl ⟨e, r⟩] :=
  @runs_perform_iff (S.sum T) (.inl e) t r

theorem runs_performInr_iff {e : T.Op} {t : List (Event (S.sum T))} {r : T.Reply e} :
    Runs (Prog.performInr e) t r ↔ t = [Event.inr ⟨e, r⟩] :=
  @runs_perform_iff (S.sum T) (.inr e) t r

theorem implements_performInl_iff {s : List (Event S)} {t : List (Event (S.sum T))} :
    Implements Prog.performInl s t ↔ t = s.map Event.inl := by
  induction s generalizing t with
  | nil => exact implements_nil_iff
  | cons x s ih =>
    rw [implements_cons_iff, List.map_cons]
    simp only [runs_performInl_iff, ih]
    constructor
    · rintro ⟨_, _, rfl, rfl, rfl⟩
      rfl
    · rintro rfl
      exact ⟨_, _, rfl, rfl, rfl⟩

theorem runs_inl_iff {p : Prog S α} {t : List (Event (S.sum T))} {a : α} :
    Runs p.inl t a ↔ ∃ s, t = s.map Event.inl ∧ Runs p s a := by
  simp only [Prog.inl, runs_interp_iff, implements_performInl_iff, and_comm]

theorem panics_inl_iff {p : Prog S α} {t : List (Event (S.sum T))} :
    Panics p.inl t ↔ ∃ s, t = s.map Event.inl ∧ Panics p s := by
  constructor
  · intro h
    rcases panics_interp h with ⟨s, hs, ht⟩ | ⟨_, e, _, _, _, -, -, -, he⟩
    · exact ⟨s, implements_performInl_iff.1 ht, hs⟩
    · exact absurd he (@not_panics_perform (S.sum T) (.inl e) _)
  · rintro ⟨s, rfl, hs⟩
    have h : Panics (p.inl : Prog (S.sum T) α) (s.map Event.inl ++ []) :=
      hs.path.panics_interp (implements_performInl_iff.2 rfl) .panic
    rwa [List.append_nil] at h

/-! ## Programs that can fail -/

variable {ε ε' : Type}

/-- A failure or a value, as a program without calls. -/
def attempt (x : Except ε α) : ExceptT ε (Prog S) α := .mk (.ret x)

/-- The program of one call that replies with a failure or a value.  The failure is mapped by `g`. -/
def callExcept (e : S.Op) (f : S.Reply e → Except ε' α) (g : ε' → ε) : ExceptT ε (Prog S) α :=
  .mk (.call e fun r => .ret ((f r).mapError g))

/-- What a function that may panic comes to, as a program without calls: `none` stands for the panic. -/
def unwind (x : Option (Except ε α)) : ExceptT ε (Prog S) α :=
  .mk (match x with
    | some r => .ret r
    | none => .panic)

@[simp] theorem attempt_error_bind (e : ε) (f : α → ExceptT ε (Prog S) β) :
    attempt (.error e) >>= f = throw e := rfl

theorem attempt_bind (x : Except ε α) (f : α → Except ε β) :
    (attempt (x >>= f) : ExceptT ε (Prog S) β) = attempt x >>= fun a => attempt (f a) := by
  cases x <;> rfl

theorem attempt_pure (a : α) :
    (attempt (pure a : Except ε α) : ExceptT ε (Prog S) α) = pure a := rfl

theorem unwind_map_bind (x : Option γ) (g : γ → Except ε α) (f : α → Except ε β) :
    (unwind (x.map fun r => g r >>= f) : ExceptT ε (Prog S) β) =
      unwind (x.map g) >>= fun a => attempt (f a) := by
  rcases x with _ | r
  · rfl
  · rw [Option.map_some, Option.map_some]
    exact attempt_bind (g r) f

theorem runs_attempt_iff {x r : Except ε α} {t : List (Event S)} :
    Runs (attempt x).run t r ↔ t = [] ∧ x = r :=
  runs_ret_iff.trans (and_congr_right' eq_comm)

theorem runs_unwind_iff {x : Option (Except ε α)} {r : Except ε α} {t : List (Event S)} :
    Runs (unwind x).run t r ↔ t = [] ∧ x = some r := by
  rcases x with _ | r'
  · constructor
    · rintro ⟨⟩
    · rintro ⟨-, ⟨⟩⟩
  · rw [Option.some.injEq]
    exact runs_attempt_iff

theorem panics_unwind_iff {x : Option (Except ε α)} {t : List (Event S)} :
    Panics (unwind x).run t ↔ t = [] ∧ x = none := by
  rcases x with _ | r
  · exact panics_panic_iff.trans (and_iff_left rfl).symm
  · exact iff_of_false not_panics_ret fun h => by cases h.2

theorem not_panics_attempt {x : Except ε α} {t : List (Event S)} : ¬ Panics (attempt x).run t :=
  not_panics_ret

theorem not_panics_callExcept {e : S.Op} {f : S.Reply e → Except ε' α} {g : ε' → ε}
    {t : List (Event S)} : ¬ Panics (callExcept e f g).run t := by
  intro h
  obtain ⟨_, _, -, h⟩ := panics_call_iff.1 h
  exact not_panics_ret h

theorem runs_callExcept_iff {e : S.Op} {f : S.Reply e → Except ε' α} {g : ε' → ε}
    {t : List (Event S)} {x : Except ε α} :
    Runs (callExcept e f g).run t x ↔ ∃ r, t = [⟨e, r⟩] ∧ (f r).mapError g = x := by
  refine runs_call_iff.trans ⟨?_, ?_⟩
  · rintro ⟨r, t', rfl, h⟩
    obtain ⟨rfl, rfl⟩ := runs_ret_iff.1 h
    exact ⟨r, rfl, rfl⟩
  · rintro ⟨r, rfl, rfl⟩
    exact ⟨r, [], rfl, .ret _⟩

theorem runs_callExcept_ok_iff {e : S.Op} {f : S.Reply e → Except ε' α} {g : ε' → ε}
    {t : List (Event S)} {a : α} :
    Runs (callExcept e f g).run t (.ok a) ↔ ∃ r, t = [⟨e, r⟩] ∧ f r = .ok a := by
  simp only [runs_callExcept_iff, mapError_eq_ok_iff]

theorem runs_callExcept_error_iff {e : S.Op} {f : S.Reply e → Except ε' α} {g : ε' → ε}
    {t : List (Event S)} {x : ε} :
    Runs (callExcept e f g).run t (.error x) ↔
      ∃ r e', t = [⟨e, r⟩] ∧ f r = .error e' ∧ x = g e' := by
  simp only [runs_callExcept_iff, mapError_eq_error_iff, exists_and_left]

/-- A program that can fail, followed by another one: the first fails, or both run. -/
theorem runs_except_bind_iff {x : ExceptT ε (Prog S) α} {f : α → ExceptT ε (Prog S) β}
    {t : List (Event S)} {r : Except ε β} :
    Runs (x >>= f).run t r ↔ (∃ e, r = .error e ∧ Runs x.run t (.error e)) ∨
      ∃ t₁ t₂ a, t = t₁ ++ t₂ ∧ Runs x.run t₁ (.ok a) ∧ Runs (f a).run t₂ r := by
  rw [ExceptT.run_bind, runs_bind_iff]
  constructor
  · rintro ⟨t₁, t₂, e | a, rfl, h₁, h₂⟩
    · obtain ⟨rfl, rfl⟩ := runs_ret_iff.1 h₂
      rw [List.append_nil]
      exact .inl ⟨e, rfl, h₁⟩
    · exact .inr ⟨t₁, t₂, a, rfl, h₁, h₂⟩
  · rintro (⟨e, rfl, h⟩ | ⟨t₁, t₂, a, rfl, h₁, h₂⟩)
    · exact ⟨t, [], .error e, (List.append_nil t).symm, h, .ret _⟩
    · exact ⟨t₁, t₂, .ok a, rfl, h₁, h₂⟩

/-- A program that can fail, followed by another one: the first panics, or it runs and the second
panics. -/
theorem panics_except_bind_iff {x : ExceptT ε (Prog S) α} {f : α → ExceptT ε (Prog S) β}
    {t : List (Event S)} :
    Panics (x >>= f).run t ↔ Panics x.run t ∨
      ∃ t₁ t₂ a, t = t₁ ++ t₂ ∧ Runs x.run t₁ (.ok a) ∧ Panics (f a).run t₂ := by
  rw [ExceptT.run_bind, panics_bind_iff]
  apply or_congr_right
  constructor
  · rintro ⟨t₁, t₂, e | a, rfl, h₁, h₂⟩
    · exact absurd h₂ not_panics_ret
    · exact ⟨t₁, t₂, a, rfl, h₁, h₂⟩
  · rintro ⟨t₁, t₂, a, rfl, h₁, h₂⟩
    exact ⟨t₁, t₂, .ok a, rfl, h₁, h₂⟩

/-! ## Deterministic environments -/

/-- An environment: in each state, its reply to each call and its next state. -/
abbrev World (S : Sig) (σ : Type) : Type := σ → (e : S.Op) → S.Reply e × σ

/-- `w.Steps s t s'`: from the state `s` the environment answers the calls of `t` with the replies
recorded there and ends in `s'`. -/
inductive World.Steps (w : World S σ) : σ → List (Event S) → σ → Prop
  | nil (s : σ) : World.Steps w s [] s
  | cons {s s' : σ} {e : S.Op} {t : List (Event S)} (h : World.Steps w (w s e).2 t s') :
      World.Steps w s (⟨e, (w s e).1⟩ :: t) s'

@[simp] theorem World.steps_nil_iff {w : World S σ} {s s' : σ} : w.Steps s [] s' ↔ s' = s := by
  constructor
  · rintro ⟨⟩
    rfl
  · rintro rfl
    exact .nil _

theorem World.steps_cons_iff {w : World S σ} {s s' : σ} {e : S.Op} {r : S.Reply e}
    {t : List (Event S)} :
    w.Steps s (⟨e, r⟩ :: t) s' ↔ r = (w s e).1 ∧ w.Steps (w s e).2 t s' := by
  constructor
  · rintro ⟨⟩
    exact ⟨rfl, ‹_›⟩
  · rintro ⟨rfl, h⟩
    exact .cons h

theorem World.Steps.append {w : World S σ} {s s' s'' : σ} {t t' : List (Event S)}
    (h : w.Steps s t s') (h' : w.Steps s' t' s'') : w.Steps s (t ++ t') s'' := by
  induction h with
  | nil => exact h'
  | cons _ ih => exact .cons (ih h')

/-- An environment for `S`, beside a function that answers the calls of `T`. -/
def World.beside (w : World S σ) (f : ∀ e : T.Op, T.Reply e) : World (S.sum T) σ
  | s, .inl e => w s e
  | s, .inr e => (f e, s)

theorem World.beside_steps_map_inl_iff {w : World S σ} {f : ∀ e : T.Op, T.Reply e} {s s' : σ}
    {t : List (Event S)} : (w.beside f).Steps s (t.map Event.inl) s' ↔ w.Steps s t s' := by
  induction t generalizing s with
  | nil => rw [List.map_nil, steps_nil_iff, steps_nil_iff]
  | cons x t ih =>
    obtain ⟨e, r⟩ := x
    refine Iff.trans ?_ steps_cons_iff.symm
    exact steps_cons_iff.trans (and_congr_right' ih)

/-- What a program does in an environment: its result, if it does not panic, its calls and the final
state. -/
structure Outcome (S : Sig) (α σ : Type) where
  result : Option α
  trace : List (Event S)
  final : σ

/-- Run a program in an environment. -/
def Prog.run (w : World S σ) : Prog S α → σ → Outcome S α σ
  | .ret a, s => ⟨some a, [], s⟩
  | .panic, s => ⟨none, [], s⟩
  | .call e k, s =>
    let o := (k (w s e).1).run w (w s e).2
    { o with trace := ⟨e, (w s e).1⟩ :: o.trace }

/-- A run in an environment is the run whose replies are those of the environment. -/
theorem run_eq_iff {w : World S σ} {p : Prog S α} {s : σ} {o : Outcome S α σ} :
    p.run w s = o ↔ Ends p o.trace o.result ∧ w.Steps s o.trace o.final := by
  induction p generalizing s o with
  | ret a =>
    rw [Prog.run]
    constructor
    · rintro rfl
      exact ⟨.ret a, .nil s⟩
    · obtain ⟨_ | b, t, s'⟩ := o
      · rintro ⟨⟨⟩, -⟩
      · rintro ⟨⟨⟩, h⟩
        obtain rfl := World.steps_nil_iff.1 h
        rfl
  | panic =>
    rw [Prog.run]
    constructor
    · rintro rfl
      exact ⟨.panic, .nil s⟩
    · obtain ⟨_ | b, t, s'⟩ := o
      · rintro ⟨⟨⟩, h⟩
        obtain rfl := World.steps_nil_iff.1 h
        rfl
      · rintro ⟨⟨⟩, -⟩
  | call e k ih =>
    rw [Prog.run, ends_call_iff]
    constructor
    · rintro rfl
      have h := (ih (w s e).1).1 (rfl : (k (w s e).1).run w (w s e).2 = _)
      exact ⟨⟨_, _, rfl, h.1⟩, .cons h.2⟩
    · obtain ⟨b, t, s'⟩ := o
      rintro ⟨⟨r, t', rfl, h₁⟩, h₂⟩
      obtain ⟨rfl, h₂⟩ := World.steps_cons_iff.1 h₂
      have h := (ih (w s e).1 (s := (w s e).2) (o := ⟨b, t', s'⟩)).2 ⟨h₁, h₂⟩
      simp only [h]

theorem ends_run (w : World S σ) (p : Prog S α) (s : σ) :
    Ends p (p.run w s).trace (p.run w s).result :=
  (run_eq_iff.1 rfl).1

theorem steps_run (w : World S σ) (p : Prog S α) (s : σ) :
    w.Steps s (p.run w s).trace (p.run w s).final :=
  (run_eq_iff.1 rfl).2

end Interaction
