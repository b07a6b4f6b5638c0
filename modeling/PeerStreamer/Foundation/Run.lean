import Mathlib.Data.List.Basic
import Mathlib.Data.List.Induction
import Mathlib.Tactic

/-!
# Runs of a step relation

Everything the development says about "every sequence of calls" or "every order of steps" is a
statement about runs.  This file fixes the two notions used throughout and the induction rules
that go with them, over arbitrary states, labels and errors.

* `Run step s₀ tr s` — the relation `step` leads from `s₀` to `s` through the labels `tr`, oldest
  first.  `Run.history` is the induction rule, with a history variable.
* `exec f s as` — the executable form, for a step *function* that may fail.  `exec_history` is the
  same rule for it, and `exec_total` adds progress: a step that can always be taken from a state
  satisfying the invariant never makes the run fail.
* `exists_endless` — a run that can be executed as far as one likes goes on for ever.
* `Along f P s as` — every input of an execution satisfies `P` in the state it is taken in.
  `along_iff_always` says when this is exactly what keeps a property throughout a run, and
  `exec_ok_iff_along` when it is exactly what makes it succeed.
* `outputs g t as` — the outputs of a machine that cannot fail, and `exec_simulates`, by which an
  execution that follows it step by step has exactly its outputs.
* `exec_unwinds` — inputs that cannot be seen in a part of the state can be left out without
  changing the answers to the others.
-/

namespace PeerStreamer

/-! ## Runs of a relation -/

/-- `Run step s₀ tr s`: the labels `tr`, taken in order from `s₀`, lead to `s`. -/
inductive Run {σ ℓ : Type} (step : σ → ℓ → σ → Prop) (s₀ : σ) : List ℓ → σ → Prop
  | nil : Run step s₀ [] s₀
  | snoc {tr : List ℓ} {s : σ} {l : ℓ} {s' : σ} :
      Run step s₀ tr s → step s l s' → Run step s₀ (tr ++ [l]) s'

variable {σ ℓ : Type} {step : σ → ℓ → σ → Prop} {s₀ s s' : σ} {tr tr' : List ℓ}

/-- **The rule with a history variable.**  What holds of the empty history and is kept by every
step holds of every run. -/
theorem Run.history {J : List ℓ → σ → Prop} (h : Run step s₀ tr s) (h₀ : J [] s₀)
    (hstep : ∀ tr s l s', Run step s₀ tr s → J tr s → step s l s' → J (tr ++ [l]) s') :
    J tr s := by
  induction h with
  | nil => exact h₀
  | snoc hr hs ih => exact hstep _ _ _ _ hr ih hs

/-- Runs compose. -/
theorem Run.append (h : Run step s₀ tr s) (h' : Run step s tr' s') :
    Run step s₀ (tr ++ tr') s' := by
  induction h' with
  | nil => simpa using h
  | snoc _ hs ih => rw [← List.append_assoc]; exact .snoc ih hs

/-! ## Runs of a fallible step function -/

variable {α β ε : Type}

/-- A step leads to one state, with one output. -/
lemma ok_unique {x : Except ε (σ × β)} {b b' : β} (h : x = .ok (s, b)) (h' : x = .ok (s', b')) :
    s = s' ∧ b = b' :=
  Prod.mk.inj (Except.ok.inj (h.symm.trans h'))

/-- Execute the inputs `as` in order, collecting one output each; the first failure stops the
run. -/
def exec (f : σ → α → Except ε (σ × β)) : σ → List α → Except ε (σ × List β)
  | s, [] => .ok (s, [])
  | s, a :: as => do
      let (s', b) ← f s a
      let (s'', bs) ← exec f s' as
      return (s'', b :: bs)

variable {f : σ → α → Except ε (σ × β)}

@[simp] lemma exec_nil (s : σ) : exec f s [] = .ok (s, []) := rfl

/-- One more input at the front of a successful execution. -/
lemma exec_cons_eq_ok {s s'' : σ} {a : α} {as : List α} {bs : List β} :
    exec f s (a :: as) = .ok (s'', bs) ↔
      ∃ s' b bs', f s a = .ok (s', b) ∧ exec f s' as = .ok (s'', bs') ∧ bs = b :: bs' := by
  simp only [exec, bind, Except.bind, pure, Except.pure]
  constructor
  · intro h
    cases hf : f s a with
    | error e => simp [hf] at h
    | ok p =>
        cases he : exec f p.1 as with
        | error e => simp [hf, he] at h
        | ok q =>
            simp only [hf, he, Except.ok.injEq, Prod.mk.injEq] at h
            exact ⟨p.1, p.2, q.2, rfl, by rw [he, ← h.1], h.2.symm⟩
  · rintro ⟨s', b, bs', hf, he, rfl⟩
    simp [hf, he]

/-- The same, when it is known what the step does. -/
lemma exec_cons_of_ok {s s₁ s'' : σ} {a : α} {as : List α} {b : β} {bs : List β}
    (hs : f s a = .ok (s₁, b)) :
    exec f s (a :: as) = .ok (s'', bs) ↔ ∃ bs', exec f s₁ as = .ok (s'', bs') ∧ bs = b :: bs' := by
  rw [exec_cons_eq_ok]
  constructor
  · rintro ⟨s₂, b₂, bs', hs₂, he, rfl⟩
    obtain ⟨rfl, rfl⟩ := ok_unique hs hs₂
    exact ⟨bs', he, rfl⟩
  · rintro ⟨bs', he, rfl⟩
    exact ⟨s₁, b, bs', hs, he, rfl⟩

/-- A successful execution is a run over the pairs of input and output. -/
lemma exec_run {s s' : σ} {as : List α} {bs : List β} (h : exec f s as = .ok (s', bs)) :
    as.length = bs.length ∧ Run (fun s l s' => f s l.1 = .ok (s', l.2)) s (as.zip bs) s' := by
  induction as generalizing s bs with
  | nil =>
      obtain ⟨rfl, rfl⟩ : s = s' ∧ ([] : List β) = bs := by simpa using h
      exact ⟨rfl, .nil⟩
  | cons a as ih =>
      obtain ⟨s₁, b, bs', hf, he, rfl⟩ := exec_cons_eq_ok.mp h
      obtain ⟨hlen, hrun⟩ := ih he
      refine ⟨by simp [hlen], ?_⟩
      have hone : Run (fun s l s' => f s l.1 = .ok (s', l.2)) s ([] ++ [(a, b)]) s₁ :=
        .snoc .nil hf
      simpa using hone.append hrun

/-- **The history rule for an execution.** -/
theorem exec_history {J : List α → List β → σ → Prop} {s₀ s : σ} {as : List α} {bs : List β}
    (h : exec f s₀ as = .ok (s, bs)) (h₀ : J [] [] s₀)
    (hstep : ∀ as bs s a b s', J as bs s → f s a = .ok (s', b) → J (as ++ [a]) (bs ++ [b]) s') :
    J as bs s := by
  obtain ⟨hlen, hrun⟩ := exec_run h
  have key : J ((as.zip bs).map Prod.fst) ((as.zip bs).map Prod.snd) s :=
    Run.history (J := fun tr s => J (tr.map Prod.fst) (tr.map Prod.snd) s) hrun h₀
      fun tr s l s' _ hj hs => by simpa using hstep _ _ _ _ _ _ hj hs
  rwa [List.map_fst_zip (by omega), List.map_snd_zip (by omega)] at key

/-- **Progress.**  If every input allowed after the history so far can be taken and keeps `J`,
the whole execution succeeds and ends in `J`. -/
theorem exec_total {J : List α → List β → σ → Prop} {s₀ : σ} {as : List α} (h₀ : J [] [] s₀)
    (hstep : ∀ pre a post bs s, as = pre ++ a :: post → J pre bs s →
      ∃ s' b, f s a = .ok (s', b) ∧ J (pre ++ [a]) (bs ++ [b]) s') :
    ∃ s bs, exec f s₀ as = .ok (s, bs) ∧ J as bs s := by
  -- generalised over what has been executed already, so the induction can move the seam
  suffices H : ∀ (post pre : List α) (bs : List β) (s : σ), as = pre ++ post → J pre bs s →
      ∃ s' bs', exec f s post = .ok (s', bs') ∧ J as (bs ++ bs') s' by
    simpa using H as [] [] s₀ (by simp) h₀
  intro post
  induction post with
  | nil =>
      intro pre bs s hpre hj
      exact ⟨s, [], rfl, by simpa [hpre] using hj⟩
  | cons a post ih =>
      intro pre bs s hpre hj
      obtain ⟨s', b, hf, hj'⟩ := hstep pre a post bs s hpre hj
      obtain ⟨s'', bs', he, hj''⟩ := ih (pre ++ [a]) (bs ++ [b]) s' (by simp [hpre]) hj'
      exact ⟨s'', b :: bs', exec_cons_eq_ok.mpr ⟨s', b, bs', hf, he, rfl⟩, by simpa using hj''⟩

/-- An execution of a concatenation is one execution after the other. -/
lemma exec_append_eq_ok {s s'' : σ} {as as' : List α} {bs : List β} :
    exec f s (as ++ as') = .ok (s'', bs) ↔
      ∃ s' bs₁ bs₂, exec f s as = .ok (s', bs₁) ∧ exec f s' as' = .ok (s'', bs₂)
        ∧ bs = bs₁ ++ bs₂ := by
  induction as generalizing s bs with
  | nil => simp
  | cons a as ih =>
      simp only [List.cons_append, exec_cons_eq_ok, ih]
      constructor
      · rintro ⟨s₁, b, -, hf, ⟨s', bs₁, bs₂, h₁, h₂, rfl⟩, rfl⟩
        exact ⟨s', b :: bs₁, bs₂, ⟨s₁, b, bs₁, hf, h₁, rfl⟩, h₂, rfl⟩
      · rintro ⟨s', -, bs₂, ⟨s₁, b, bs₁, hf, h₁, rfl⟩, h₂, rfl⟩
        exact ⟨s₁, b, bs₁ ++ bs₂, hf, ⟨s', bs₁, bs₂, h₁, h₂, rfl⟩, rfl⟩

/-- **A run without end**, if everything it begins with can be executed. -/
theorem exists_endless {s₀ : σ} {a : ℕ → α}
    (h : ∀ k, ∃ s bs, exec f s₀ ((List.range k).map a) = .ok (s, bs)) :
    ∃ (st : ℕ → σ) (out : ℕ → β), st 0 = s₀ ∧ ∀ k, f (st k) (a k) = .ok (st (k + 1), out k) := by
  choose st outs hst using h
  have hstep : ∀ k, ∃ b, f (st k) (a k) = .ok (st (k + 1), b) := by
    intro k
    have hmore := hst (k + 1)
    rw [List.range_succ, List.map_append, exec_append_eq_ok] at hmore
    obtain ⟨s, bs₁, bs₂, hpre, hlast, -⟩ := hmore
    obtain ⟨rfl, -⟩ := ok_unique (hst k) hpre
    obtain ⟨s', b, bs', hs, hnil, -⟩ := exec_cons_eq_ok.mp hlast
    cases hnil
    exact ⟨b, hs⟩
  choose out hout using hstep
  refine ⟨st, out, ?_, hout⟩
  obtain ⟨rfl, -⟩ := ok_unique (exec_nil s₀) (hst 0)
  rfl

/-! ## Conditions along a run -/

/-- Every input of the run satisfies `P` in the state in which it is taken. -/
def Along (f : σ → α → Except ε (σ × β)) (P : σ → α → Prop) : σ → List α → Prop
  | _, [] => True
  | s, a :: as => P s a ∧ ∀ s' b, f s a = .ok (s', b) → Along f P s' as

@[simp] lemma along_nil {P : σ → α → Prop} (s : σ) : Along f P s [] := trivial

lemma along_cons {P : σ → α → Prop} {s : σ} {a : α} {as : List α} :
    Along f P s (a :: as) ↔ P s a ∧ ∀ s' b, f s a = .ok (s', b) → Along f P s' as := Iff.rfl

/-- The same, when it is known what the step does. -/
lemma along_cons_of_ok {P : σ → α → Prop} {s s₁ : σ} {a : α} {as : List α} {b : β}
    (hs : f s a = .ok (s₁, b)) : Along f P s (a :: as) ↔ P s a ∧ Along f P s₁ as := by
  rw [along_cons]
  refine and_congr_right fun _ => ⟨fun h => h s₁ b hs, fun h s₂ b₂ hs₂ => ?_⟩
  obtain ⟨rfl, -⟩ := ok_unique hs hs₂
  exact h

/-- A condition along one run after the other. -/
lemma along_append {P : σ → α → Prop} {s : σ} {as as' : List α} :
    Along f P s (as ++ as')
      ↔ Along f P s as ∧ ∀ s' bs, exec f s as = .ok (s', bs) → Along f P s' as' := by
  induction as generalizing s with
  | nil => simp
  | cons a as ih =>
      simp only [List.cons_append, along_cons, ih, exec_cons_eq_ok]
      constructor
      · rintro ⟨hP, h⟩
        refine ⟨⟨hP, fun s₁ b hf => (h s₁ b hf).1⟩, ?_⟩
        rintro s' - ⟨s₁, b, bs, hf, he, rfl⟩
        exact (h s₁ b hf).2 s' bs he
      · rintro ⟨⟨hP, h⟩, h'⟩
        exact ⟨hP, fun s₁ b hf => ⟨h s₁ b hf, fun s' bs he => h' s' _ ⟨s₁, b, bs, hf, he, rfl⟩⟩⟩

/-- A condition along a run, and then of one input more. -/
lemma along_concat {P : σ → α → Prop} {s s' : σ} {as : List α} {a : α} {bs : List β}
    (h : Along f P s as) (hexec : exec f s as = .ok (s', bs)) (ha : P s' a) :
    Along f P s (as ++ [a]) := by
  refine along_append.mpr ⟨h, fun s₁ bs₁ hexec₁ => ?_⟩
  obtain ⟨rfl, -⟩ := ok_unique hexec hexec₁
  exact ⟨ha, fun _ _ _ => trivial⟩

/-- A condition along a run can be checked by executing it. -/
instance Along.decidable {P : σ → α → Prop} [∀ s a, Decidable (P s a)] :
    (s : σ) → (as : List α) → Decidable (Along f P s as)
  | _, [] => isTrue trivial
  | s, a :: as =>
      match hf : f s a with
      | .error e =>
          decidable_of_iff (P s a) ⟨fun h => ⟨h, fun _ _ he => by rw [hf] at he; cases he⟩,
            fun h => h.1⟩
      | .ok (s', b) =>
          have : Decidable (Along f P s' as) := Along.decidable s' as
          decidable_of_iff (P s a ∧ Along f P s' as)
            ⟨fun h => ⟨h.1, fun s'' b' he => by
              rw [hf] at he
              cases he
              exact h.2⟩, fun h => ⟨h.1, h.2 s' b hf⟩⟩

/-- Two conditions that agree in the states of a run hold along the same runs. -/
lemma along_congr {P Q : σ → α → Prop} {J : σ → Prop} (hiff : ∀ s a, J s → (P s a ↔ Q s a))
    (hstep : ∀ s a s' b, J s → Q s a → f s a = .ok (s', b) → J s') {s : σ} (h₀ : J s)
    (as : List α) : Along f P s as ↔ Along f Q s as := by
  induction as generalizing s with
  | nil => exact Iff.rfl
  | cons a as ih =>
      rw [along_cons, along_cons, hiff s a h₀]
      exact and_congr_right fun hq =>
        forall₃_congr fun s' b hf => ih (hstep s a s' b h₀ hq hf)

/-- A condition that follows from another one in the states of a run. -/
lemma along_imp {P Q : σ → α → Prop} {J : σ → Prop} (himp : ∀ s a, J s → P s a → Q s a)
    (hstep : ∀ s a s' b, J s → P s a → f s a = .ok (s', b) → J s') {s : σ} {as : List α}
    (h₀ : J s) (hP : Along f P s as) : Along f Q s as := by
  induction as generalizing s with
  | nil => trivial
  | cons a as ih =>
      exact ⟨himp s a h₀ hP.1, fun s' b hf => ih (hstep s a s' b h₀ hP.1 hf) (hP.2 s' b hf)⟩

lemma Along.mono {P Q : σ → α → Prop} {s : σ} {as : List α} (hP : Along f P s as)
    (himp : ∀ s a, P s a → Q s a) : Along f Q s as :=
  along_imp (J := fun _ => True) (fun s a _ => himp s a) (fun _ _ _ _ _ _ _ => trivial) trivial hP

/-- **The rule for a condition along a run.**  What holds at the start and is kept by every step
whose input satisfies the condition holds at the end. -/
theorem exec_along {P : σ → α → Prop} {J : σ → Prop} {s s' : σ} {as : List α} {bs : List β}
    (h : exec f s as = .ok (s', bs)) (hP : Along f P s as) (h₀ : J s)
    (hstep : ∀ s a s' b, J s → P s a → f s a = .ok (s', b) → J s') : J s' := by
  induction as generalizing s bs with
  | nil =>
      obtain ⟨rfl, -⟩ : s = s' ∧ ([] : List β) = bs := by simpa using h
      exact h₀
  | cons a as ih =>
      obtain ⟨s₁, b, bs', hf, he, -⟩ := exec_cons_eq_ok.mp h
      exact ih he (hP.2 s₁ b hf) (hstep s a s₁ b h₀ hP.1 hf)

/-- Progress along a run, with what has been answered: when every step whose input satisfies the
condition can be taken and keeps `J`, the execution succeeds and ends in `J`. -/
theorem exec_along_history {P : σ → α → Prop} {J : List β → σ → Prop}
    (hstep : ∀ bs s a, J bs s → P s a → ∃ s' b, f s a = .ok (s', b) ∧ J (bs ++ [b]) s') {s : σ}
    {as : List α} (h₀ : J [] s) (hP : Along f P s as) :
    ∃ s' bs, exec f s as = .ok (s', bs) ∧ J bs s' := by
  -- generalised over what has been answered already
  suffices H : ∀ bs s, J bs s → Along f P s as →
      ∃ s' bs', exec f s as = .ok (s', bs') ∧ J (bs ++ bs') s' from H [] s h₀ hP
  clear h₀ hP s
  induction as with
  | nil => exact fun bs s hJ _ => ⟨s, [], rfl, by rwa [List.append_nil]⟩
  | cons a as ih =>
      intro bs s hJ hP
      obtain ⟨s₁, b, hf, h₁⟩ := hstep bs s a hJ hP.1
      obtain ⟨s', bs', he, h'⟩ := ih (bs ++ [b]) s₁ h₁ (hP.2 s₁ b hf)
      rw [List.append_assoc] at h'
      exact ⟨s', b :: bs', exec_cons_eq_ok.mpr ⟨s₁, b, bs', hf, he, rfl⟩, h'⟩

/-- Progress along a run. -/
theorem exec_along_total {P : σ → α → Prop} {J : σ → Prop}
    (hstep : ∀ s a, J s → P s a → ∃ s' b, f s a = .ok (s', b) ∧ J s') {s : σ} {as : List α}
    (h₀ : J s) (hP : Along f P s as) : ∃ s' bs, exec f s as = .ok (s', bs) ∧ J s' :=
  exec_along_history (fun _ s a hJ hp => hstep s a hJ hp) h₀ hP

/-- **What a condition along a run is for.**  When every input can be taken, and the property `J` is
kept exactly by those that satisfy the condition, the condition holds along a run if and only if
every state the run goes through has the property. -/
theorem along_iff_always {P : σ → α → Prop} {I J : σ → Prop}
    (htotal : ∀ s a, I s → ∃ s' b, f s a = .ok (s', b) ∧ I s')
    (hiff : ∀ s a s' b, I s → J s → f s a = .ok (s', b) → (J s' ↔ P s a)) {s : σ} (hI : I s)
    (hJ : J s) (as : List α) :
    Along f P s as ↔ ∀ pre, pre <+: as → ∀ s' bs, exec f s pre = .ok (s', bs) → J s' := by
  induction as generalizing s with
  | nil =>
      refine ⟨fun _ pre hpre s' bs he => ?_, fun _ => trivial⟩
      obtain rfl := List.prefix_nil.mp hpre
      cases he
      exact hJ
  | cons a as ih =>
      obtain ⟨s₁, b, hf, hI₁⟩ := htotal s a hI
      have hone : exec f s [a] = .ok (s₁, [b]) :=
        (exec_cons_of_ok hf).mpr ⟨[], exec_nil s₁, rfl⟩
      rw [along_cons_of_ok hf]
      constructor
      · rintro ⟨hP, hrest⟩ pre hpre s' bs he
        have hJ₁ : J s₁ := (hiff s a s₁ b hI hJ hf).mpr hP
        rcases List.prefix_cons_iff.mp hpre with rfl | ⟨rest, rfl, hpost⟩
        · cases he
          exact hJ
        · obtain ⟨bs₂, he₂, -⟩ := (exec_cons_of_ok hf).mp he
          exact (ih hI₁ hJ₁).mp hrest rest hpost s' bs₂ he₂
      · intro h
        have hJ₁ : J s₁ := h [a] (by simp) s₁ [b] hone
        refine ⟨(hiff s a s₁ b hI hJ hf).mp hJ₁, (ih hI₁ hJ₁).mpr fun pre hpre s' bs he => ?_⟩
        exact h (a :: pre) (List.prefix_cons_iff.mpr (Or.inr ⟨pre, rfl, hpre⟩)) s' (b :: bs)
          ((exec_cons_of_ok hf).mpr ⟨bs, he, rfl⟩)

/-- What every step keeps whose input is one of those taken. -/
theorem exec_keeps {J : σ → Prop} {s s' : σ} {as : List α} {bs : List β}
    (h : exec f s as = .ok (s', bs)) (h₀ : J s)
    (hstep : ∀ s, ∀ a ∈ as, ∀ s' b, J s → f s a = .ok (s', b) → J s') : J s' := by
  induction as generalizing s bs with
  | nil =>
      cases h
      exact h₀
  | cons a as ih =>
      obtain ⟨s₁, b, bs', hf, he, -⟩ := exec_cons_eq_ok.mp h
      exact ih he (hstep s a List.mem_cons_self s₁ b h₀ hf)
        fun t a ha => hstep t a (List.mem_cons_of_mem _ ha)

/-- **When a run succeeds.**  When an input can be taken exactly if it satisfies the condition, an
execution succeeds if and only if the condition holds along it. -/
theorem exec_ok_iff_along {P : σ → α → Prop} {J : σ → Prop} {as : List α}
    (hiff : ∀ s, ∀ a ∈ as, J s → ((∃ s' b, f s a = .ok (s', b)) ↔ P s a))
    (hstep : ∀ s, ∀ a ∈ as, ∀ s' b, J s → f s a = .ok (s', b) → J s') {s : σ} (h₀ : J s) :
    (∃ s' bs, exec f s as = .ok (s', bs)) ↔ Along f P s as := by
  induction as generalizing s with
  | nil => exact iff_of_true ⟨s, [], rfl⟩ trivial
  | cons a as ih =>
      have hrest := fun s' b (hf : f s a = .ok (s', b)) =>
        ih (fun t a ha => hiff t a (List.mem_cons_of_mem _ ha))
          (fun t a ha => hstep t a (List.mem_cons_of_mem _ ha))
          (hstep s a List.mem_cons_self s' b h₀ hf)
      constructor
      · rintro ⟨s', bs, he⟩
        obtain ⟨s₁, b, bs', hf, he', -⟩ := exec_cons_eq_ok.mp he
        exact (along_cons_of_ok hf).mpr ⟨(hiff s a List.mem_cons_self h₀).mp ⟨s₁, b, hf⟩,
          (hrest s₁ b hf).mp ⟨s', bs', he'⟩⟩
      · rintro ⟨hP, halong⟩
        obtain ⟨s₁, b, hf⟩ := (hiff s a List.mem_cons_self h₀).mpr hP
        obtain ⟨s', bs, he⟩ := (hrest s₁ b hf).mpr (halong s₁ b hf)
        exact ⟨s', b :: bs, (exec_cons_of_ok hf).mpr ⟨bs, he, rfl⟩⟩

/-! ## Leaving inputs out -/

/-- **The rule for inputs that do not matter.**  When what is seen of the state stays as it is with
every input that is not `visible`, and what a visible one answers depends on it alone, the visible
inputs by themselves are answered as they are among the others. -/
theorem exec_unwinds (visible : α → Bool) (R : σ → σ → Prop)
    (hhidden : ∀ s t a s' b, visible a = false → R s t → f s a = .ok (s', b) → R s' t)
    (hvisible : ∀ s t a s' b, visible a = true → R s t → f s a = .ok (s', b) →
      ∃ t', f t a = .ok (t', b) ∧ R s' t')
    {s s' t : σ} {as : List α} {bs : List β} (h : exec f s as = .ok (s', bs)) (hR : R s t) :
    ∃ t', exec f t (as.filter visible)
        = .ok (t', ((as.zip bs).filter fun x => visible x.1).map Prod.snd) ∧ R s' t' := by
  induction as generalizing s t bs with
  | nil =>
      cases h
      exact ⟨t, rfl, hR⟩
  | cons a as ih =>
      obtain ⟨s₁, b, bs', hf, he, rfl⟩ := exec_cons_eq_ok.mp h
      cases ha : visible a with
      | false =>
          obtain ⟨t', ht, hR'⟩ := ih he (hhidden s t a s₁ b ha hR hf)
          exact ⟨t', by simpa [ha] using ht, hR'⟩
      | true =>
          obtain ⟨t₁, hg, hR₁⟩ := hvisible s t a s₁ b ha hR hf
          obtain ⟨t', ht, hR'⟩ := ih he hR₁
          refine ⟨t', ?_, hR'⟩
          rw [List.filter_cons_of_pos ha, List.zip_cons_cons, List.filter_cons_of_pos (by exact ha)]
          exact exec_cons_eq_ok.mpr ⟨t₁, b, _, hg, ht, rfl⟩

/-! ## Simulation of a machine that cannot fail -/

variable {τ : Type}

/-- The outputs of a machine on the inputs `as`. -/
def outputs (g : τ → α → τ × β) : τ → List α → List β
  | _, [] => []
  | t, a :: as => (g t a).2 :: outputs g (g t a).1 as

/-- The state in which a machine ends. -/
def final (g : τ → α → τ × β) (t : τ) (as : List α) : τ := as.foldl (fun t a => (g t a).1) t

/-- **The simulation rule.**  When every step that meets `P` can be taken, answers as the machine
does and leads to a related state, the execution succeeds with the outputs of the machine and ends
in a state that is related to that of the machine. -/
theorem exec_simulates {g : τ → α → τ × β} {P : σ → α → Prop} {R : σ → τ → Prop}
    (hstep : ∀ s t a, R s t → P s a → ∃ s', f s a = .ok (s', (g t a).2) ∧ R s' (g t a).1)
    {s : σ} {t : τ} {as : List α} (hR : R s t) (hP : Along f P s as) :
    ∃ s', exec f s as = .ok (s', outputs g t as) ∧ R s' (final g t as) := by
  induction as generalizing s t with
  | nil => exact ⟨s, rfl, hR⟩
  | cons a as ih =>
      obtain ⟨s₁, hf, hR₁⟩ := hstep s t a hR hP.1
      obtain ⟨s', he, hR'⟩ := ih hR₁ (hP.2 s₁ _ hf)
      exact ⟨s', exec_cons_eq_ok.mpr ⟨s₁, _, _, hf, he, rfl⟩, hR'⟩

end PeerStreamer
