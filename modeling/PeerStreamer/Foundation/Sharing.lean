import Mathlib.Data.List.ReduceOption
import PeerStreamer.Foundation.RefCount
import PeerStreamer.Foundation.Run

/-!
# Programs that share objects by counting

A program whose steps are given without the counters, and a `Sharing` that says which references are
live in a state and which operations on the counters an input makes.  `Sharing.step` is the step
with the counters, kept modulo `m`: it fails also where an object is used that has been released.

As long as every step turns the references that are live before it into those that are live after it
(`Sharing.Keeps`), and at no moment has an object `m` references or more (`Sharing.Fits`), the
counters make no difference: the program with them goes through the same states and gives the same
answers as without (`Sharing.Keeps.carries`), and what holds along the one run holds along the other
(`Sharing.Keeps.along`).

A `SharedProgram` is a program that is passed objects by its surroundings and hands references over
to them.  Put into surroundings that may do anything else with their references, it behaves as it
does alone, as long as these pass what they have and the references fit
(`SharedProgram.Respects.carries`).
-/

namespace PeerStreamer

/-- The references that are live in a state, and what an input does to the counters. -/
structure Sharing (σ α κ : Type) where
  live : σ → Multiset κ
  refs : σ → α → List (RefOp κ)

/-- A state together with the counters of the objects. -/
structure WithCounters (σ κ : Type) where
  state : σ
  counters : Counters κ

namespace Sharing

variable {σ α β κ : Type} [DecidableEq κ] (S : Sharing σ α κ) (m : ℕ) (f : σ → α → Eval (σ × β))

/-- One step with counters modulo `m`. -/
def step (s : WithCounters σ κ) (a : α) : Eval (WithCounters σ κ × β) := do
  let (state, b) ← f s.state a
  let counters ← countAll m s.counters (S.refs s.state a)
  return (⟨state, counters⟩, b)

/-- At no moment of a step has an object `m` references or more. -/
def Fits (s : σ) (a : α) : Prop := PeerStreamer.Fits m (S.live s) (S.refs s a)

instance (s : σ) (a : α) : Decidable (S.Fits m s a) :=
  inferInstanceAs (Decidable (PeerStreamer.Fits _ _ _))

/-- The counters of a state are right. -/
def Counted (s : WithCounters σ κ) : Prop := Counts m s.counters (S.live s.state)

/-- Every step from a state with `I`, whose input satisfies `P`, keeps `I` and turns the references
that are live before it into those that are live after it. -/
def Keeps (I : σ → Prop) (P : σ → α → Prop) : Prop :=
  ∀ s a s' b, I s → P s a → f s a = .ok (s', b) →
    I s' ∧ Moves (S.live s) (S.refs s a) (S.live s')

variable {S m f} {I : σ → Prop} {P Q : σ → α → Prop} {s s' : WithCounters σ κ} {t : σ} {a : α}
  {as : List α} {b : β} {bs : List β}

lemma step_eq_ok : S.step m f s a = .ok (s', b) ↔
    f s.state a = .ok (s'.state, b)
      ∧ countAll m s.counters (S.refs s.state a) = .ok s'.counters := by
  rw [step]
  simp only [Eval.bind_eq_ok, Eval.pure_eq_ok]
  constructor
  · rintro ⟨⟨t, b'⟩, hf, c, hc, he⟩
    cases he
    exact ⟨hf, hc⟩
  · rintro ⟨hf, hc⟩
    exact ⟨(s'.state, b), hf, s'.counters, hc, rfl⟩

/-- Forgetting the counters. -/
lemma exec_state (h : exec (S.step m f) s as = .ok (s', bs)) :
    exec f s.state as = .ok (s'.state, bs) := by
  induction as generalizing s bs with
  | nil =>
      cases h
      rfl
  | cons a as ih =>
      obtain ⟨s₁, b, bs', hs, he, rfl⟩ := exec_cons_eq_ok.mp h
      exact exec_cons_eq_ok.mpr ⟨s₁.state, b, bs', (step_eq_ok.mp hs).1, ih he, rfl⟩

lemma Keeps.mono (hk : S.Keeps f I P) (hPQ : ∀ s a, Q s a → P s a) : S.Keeps f I Q :=
  fun s a s' b hI hQ => hk s a s' b hI (hPQ s a hQ)

/-- **One step** that fits is made with the counters as it is made without. -/
theorem Keeps.step (hk : S.Keeps f I P) (hI : I s.state) (hc : S.Counted m s)
    (hP : P s.state a) (hfits : S.Fits m s.state a) (hf : f s.state a = .ok (t, b)) :
    ∃ c, S.step m f s a = .ok (⟨t, c⟩, b) ∧ I t ∧ S.Counted m ⟨t, c⟩ := by
  obtain ⟨hI', hmoves⟩ := hk _ _ _ _ hI hP hf
  obtain ⟨c, hcount, hcounts⟩ := Counts.countAll hc hmoves hfits
  exact ⟨c, step_eq_ok.mpr ⟨hf, hcount⟩, hI', hcounts⟩

/-- **What holds along the run with the counters** holds along the one without. -/
theorem Keeps.along (hk : S.Keeps f I P) (hI : I s.state) (hc : S.Counted m s)
    (h : Along (S.step m f) (fun s a => P s.state a ∧ S.Fits m s.state a) s as) :
    Along f (fun s a => P s a ∧ S.Fits m s a) s.state as := by
  induction as generalizing s with
  | nil => trivial
  | cons a as ih =>
      refine ⟨h.1, fun t b hf => ?_⟩
      obtain ⟨c, hs, hI', hc'⟩ := hk.step hI hc h.1.1 h.1.2 hf
      exact ih hI' hc' (h.2 _ _ hs)

/-- **A run without the counters is one with them**, as long as the references fit. -/
theorem Keeps.carries (hk : S.Keeps f I P) (hI : I s.state) (hc : S.Counted m s)
    (hexec : exec f s.state as = .ok (t, bs))
    (h : Along f (fun s a => P s a ∧ S.Fits m s a) s.state as) :
    ∃ c, exec (S.step m f) s as = .ok (⟨t, c⟩, bs) ∧ I t ∧ S.Counted m ⟨t, c⟩ := by
  induction as generalizing s bs with
  | nil =>
      cases hexec
      exact ⟨s.counters, rfl, hI, hc⟩
  | cons a as ih =>
      obtain ⟨t₁, b, bs', hf, he, rfl⟩ := exec_cons_eq_ok.mp hexec
      obtain ⟨c₁, hs, hI₁, hc₁⟩ := hk.step hI hc h.1.1 h.1.2 hf
      obtain ⟨c, he', hI', hc'⟩ := ih (s := ⟨t₁, c₁⟩) hI₁ hc₁ he (h.2 t₁ b hf)
      exact ⟨c, exec_cons_eq_ok.mpr ⟨_, b, bs', hs, he', rfl⟩, hI', hc'⟩

end Sharing

/-! ## A program and its surroundings -/

/-- A program that shares objects with its surroundings: what it does, its own references, what an
input does to the counters, which objects the input passes and which it makes, and which references
the answer hands over. -/
structure SharedProgram (σ α β κ : Type) where
  run : σ → α → Eval (σ × β)
  live : σ → Multiset κ
  refs : σ → α → List (RefOp κ)
  passed : α → List κ
  created : α → List κ
  handed : σ → α → β → Multiset κ

/-- A program together with the references of its surroundings. -/
structure Surrounded (σ κ : Type) where
  program : σ
  owned : Multiset κ

/-- A program in surroundings that have no objects yet. -/
def Surrounded.start {σ κ : Type} (t : σ) : WithCounters (Surrounded σ κ) κ :=
  ⟨⟨t, 0⟩, fun _ => none⟩

/-- What can happen: an input to the program, or an operation of the surroundings. -/
inductive Happening (α κ : Type)
  | call (a : α)
  | other (op : RefOp κ)

/-- The inputs to the program. -/
def Happening.asCall {α κ : Type} : Happening α κ → Option α
  | .call a => some a
  | .other _ => none

def Happening.calls {α κ : Type} (l : List (Happening α κ)) : List α := l.filterMap Happening.asCall

namespace SharedProgram

variable {σ α β κ : Type} [DecidableEq κ] (p : SharedProgram σ α β κ) (m : ℕ)

/-- One step, with the answer of the program. -/
def surroundedStep (s : Surrounded σ κ) : Happening α κ → Eval (Surrounded σ κ × Option β)
  | .call a => do
      let (program, b) ← p.run s.program a
      return (⟨program, s.owned + p.handed s.program a b⟩, some b)
  | .other op => return (⟨s.program, op.after s.owned⟩, none)

/-- The references of the program and of its surroundings. -/
def sharing : Sharing (Surrounded σ κ) (Happening α κ) κ where
  live s := s.owned + p.live s.program
  refs s
    | .call a => p.refs s.program a
    | .other op => [op]

/-- The surroundings pass what they have and use what they have, and what is made is new. -/
def Allowed (s : Surrounded σ κ) : Happening α κ → Prop
  | .call a => (∀ x ∈ p.passed a, x ∈ s.owned) ∧ ∀ x ∈ p.created a, x ∉ s.owned + p.live s.program
  | .other (.create x) => x ∉ s.owned + p.live s.program
  | .other (.dup x) => x ∈ s.owned
  | .other (.free x) => x ∈ s.owned

instance (s : Surrounded σ κ) : (i : Happening α κ) → Decidable (p.Allowed s i)
  | .call _ => inferInstanceAs (Decidable (_ ∧ _))
  | .other (.create x) => inferInstanceAs (Decidable (x ∉ s.owned + p.live s.program))
  | .other (.dup x) => inferInstanceAs (Decidable (x ∈ s.owned))
  | .other (.free x) => inferInstanceAs (Decidable (x ∈ s.owned))

/-- One step with counters modulo `m`. -/
def countedStep : WithCounters (Surrounded σ κ) κ → Happening α κ →
    Eval (WithCounters (Surrounded σ κ) κ × Option β) :=
  p.sharing.step m p.surroundedStep

/-- The step is allowed, and at no moment of it has an object `m` references or more. -/
def Careful (s : WithCounters (Surrounded σ κ) κ) (i : Happening α κ) : Prop :=
  p.Allowed s.state i ∧ p.sharing.Fits m s.state i

instance (s : WithCounters (Surrounded σ κ) κ) (i : Happening α κ) : Decidable (p.Careful m s i) :=
  inferInstanceAs (Decidable (_ ∧ _))

/-- An input that satisfies `P`, in a state with `I`, keeps `I` and turns the references of the
program and the surroundings into those that are left and handed over. -/
def Respects (I : σ → Prop) (P : σ → α → Prop) : Prop :=
  ∀ s a t b M, I s → P s a → p.run s a = .ok (t, b) → (∀ x ∈ p.passed a, x ∈ M) →
    (∀ x ∈ p.created a, x ∉ M + p.live s) →
      I t ∧ Moves (M + p.live s) (p.refs s a) (M + p.handed s a b + p.live t)

variable {p m} {I : σ → Prop} {P : σ → α → Prop} {s s' : WithCounters (Surrounded σ κ) κ} {t : σ}
  {is : List (Happening α κ)} {outs : List (Option β)} {bs : List β}

/-- A program without references, in surroundings without objects. -/
lemma start_counted (hm : 0 < m) (h : p.live t = 0) :
    p.sharing.Counted m (Surrounded.start t) := by
  have hlive : p.sharing.live ⟨t, 0⟩ = 0 := (zero_add _).trans h
  rw [Sharing.Counted, Surrounded.start, hlive]
  exact counts_empty hm

/-- **The program among its surroundings**, without counters. -/
lemma exec_surroundedStep {s s' : Surrounded σ κ}
    (h : exec p.surroundedStep s is = .ok (s', outs)) :
    exec p.run s.program (Happening.calls is) = .ok (s'.program, outs.reduceOption) := by
  induction is generalizing s outs with
  | nil =>
      cases h
      rfl
  | cons i is ih =>
      obtain ⟨s₁, out, outs', hs, he, rfl⟩ := exec_cons_eq_ok.mp h
      cases i with
      | call a =>
          obtain ⟨⟨t, b⟩, hrun, hret⟩ := Eval.bind_eq_ok.mp hs
          cases hret
          rw [List.reduceOption_cons_of_some]
          exact exec_cons_eq_ok.mpr ⟨t, b, _, hrun, ih he, rfl⟩
      | other op =>
          cases hs
          rw [List.reduceOption_cons_of_none]
          exact ih (s := ⟨s.program, op.after s.owned⟩) he

/-- A call with the counters is a call without, whose operations on the counters can be made. -/
lemma countedStep_call {a : α} {out : Option β} (h : p.countedStep m s (.call a) = .ok (s', out)) :
    ∃ b, p.run s.state.program a = .ok (s'.state.program, b) ∧ out = some b
      ∧ countAll m s.counters (p.refs s.state.program a) = .ok s'.counters := by
  obtain ⟨hs, hcount⟩ := Sharing.step_eq_ok.mp h
  obtain ⟨⟨t, b⟩, hrun, hret⟩ := Eval.bind_eq_ok.mp hs
  obtain ⟨hstate, rfl⟩ := Prod.mk.inj (Except.ok.inj hret)
  rw [← hstate]
  exact ⟨b, hrun, rfl, hcount⟩

/-- What the surroundings do is nothing to the program. -/
lemma countedStep_other {op : RefOp κ} {out : Option β}
    (h : p.countedStep m s (.other op) = .ok (s', out)) :
    s'.state.program = s.state.program ∧ out = none := by
  obtain ⟨hs, -⟩ := Sharing.step_eq_ok.mp h
  obtain ⟨hstate, rfl⟩ := Prod.mk.inj (Except.ok.inj hs)
  rw [← hstate]
  exact ⟨rfl, rfl⟩

/-- What the last call of a run does to the counters can be done after the run before it. -/
lemma counted_last_call {a : α} {outs' : List (Option β)}
    {s₁ : WithCounters (Surrounded σ κ) κ} (hpre : exec (p.countedStep m) s is = .ok (s₁, outs))
    (h : exec (p.countedStep m) s (is ++ [.call a]) = .ok (s', outs')) :
    countAll m s₁.counters (p.refs s₁.state.program a) = .ok s'.counters := by
  obtain ⟨s₂, outs₁, outs₂, hpre', hpost, -⟩ := exec_append_eq_ok.mp h
  obtain ⟨rfl, -⟩ := ok_unique hpre hpre'
  obtain ⟨s₃, out, outs₃, hcall, hnil, -⟩ := exec_cons_eq_ok.mp hpost
  cases hnil
  obtain ⟨b, -, -, hcount⟩ := countedStep_call hcall
  exact hcount

/-- Calls take nothing from the surroundings. -/
lemma owned_le_of_calls {as : List α}
    (h : exec (p.countedStep m) s (as.map .call) = .ok (s', outs)) :
    s.state.owned ≤ s'.state.owned := by
  refine exec_keeps (J := fun t => s.state.owned ≤ t.state.owned) h le_rfl ?_
  intro t i hi t' b ht hs
  obtain ⟨a, -, rfl⟩ := List.mem_map.mp hi
  obtain ⟨hs, -⟩ := Sharing.step_eq_ok.mp hs
  obtain ⟨⟨t₁, b₁⟩, -, hret⟩ := Eval.bind_eq_ok.mp hs
  obtain ⟨hstate, -⟩ := Prod.mk.inj (Except.ok.inj hret)
  rw [← hstate]
  exact ht.trans (Multiset.le_add_right _ _)

/-- Forgetting the surroundings and the counters. -/
theorem exec_program (h : exec (p.countedStep m) s is = .ok (s', outs)) :
    exec p.run s.state.program (Happening.calls is)
      = .ok (s'.state.program, outs.reduceOption) :=
  exec_surroundedStep (Sharing.exec_state h)

/-- A run of the program is one among any surroundings. -/
lemma exec_surroundedStep_of_run {s : Surrounded σ κ}
    (h : exec p.run s.program (Happening.calls is) = .ok (t, bs)) :
    ∃ s' outs, exec p.surroundedStep s is = .ok (s', outs) := by
  induction is generalizing s bs with
  | nil => exact ⟨s, [], rfl⟩
  | cons i is ih =>
      cases i with
      | call a =>
          obtain ⟨t₁, b, bs', hrun, hrest, -⟩ := exec_cons_eq_ok.mp h
          have hs : p.surroundedStep s (.call a)
              = .ok (⟨t₁, s.owned + p.handed s.program a b⟩, some b) := by
            rw [surroundedStep, hrun]
            rfl
          obtain ⟨s', outs, he⟩ := ih (s := ⟨t₁, s.owned + p.handed s.program a b⟩) hrest
          exact ⟨s', _, exec_cons_eq_ok.mpr ⟨_, _, outs, hs, he, rfl⟩⟩
      | other op =>
          obtain ⟨s', outs, he⟩ := ih (s := ⟨s.program, op.after s.owned⟩) h
          exact ⟨s', _, exec_cons_eq_ok.mpr ⟨_, _, outs, rfl, he, rfl⟩⟩

/-- The condition on an input to the program, for what can happen. -/
def OnCalls (P : σ → α → Prop) (s : Surrounded σ κ) : Happening α κ → Prop
  | .call a => P s.program a
  | .other _ => True

instance (P : σ → α → Prop) [∀ s a, Decidable (P s a)] (s : Surrounded σ κ) :
    (i : Happening α κ) → Decidable (OnCalls P s i)
  | .call a => inferInstanceAs (Decidable (P s.program a))
  | .other _ => isTrue trivial

/-- **The surroundings by themselves**, before the program has any references. -/
lemma exec_others (hc : p.sharing.Counted m s) (hlive : p.live s.state.program = 0)
    {ops : List (RefOp κ)} {M : Multiset κ} (hmoves : Moves s.state.owned ops M)
    (hfits : PeerStreamer.Fits m s.state.owned ops) :
    Along (p.countedStep m) (fun s i => p.Careful m s i ∧ OnCalls P s.state i) s (ops.map .other)
      ∧ ∃ c outs, exec (p.countedStep m) s (ops.map .other)
          = .ok (⟨⟨s.state.program, M⟩, c⟩, outs)
        ∧ Counts m c M := by
  have hall : p.sharing.live s.state = s.state.owned := by
    change s.state.owned + p.live s.state.program = _
    rw [hlive, add_zero]
  induction ops generalizing s with
  | nil =>
      obtain rfl : s.state.owned = M := hmoves
      exact ⟨trivial, s.counters, [], rfl, hall ▸ hc⟩
  | cons op ops ih =>
      rw [Sharing.Counted, hall] at hc
      obtain ⟨c₁, hcount, hc₁⟩ := hc.count hmoves.1 hfits.1
      have hs : p.countedStep m s (.other op)
          = .ok (⟨⟨s.state.program, op.after s.state.owned⟩, c₁⟩, none) :=
        Sharing.step_eq_ok.mpr ⟨rfl, by
          change countAll m s.counters [op] = _
          rw [countAll, hcount]
          rfl⟩
      have hall₁ : p.sharing.live ⟨s.state.program, op.after s.state.owned⟩
          = op.after s.state.owned := by
        change op.after s.state.owned + p.live s.state.program = _
        rw [hlive, add_zero]
      have hcounted₁ : p.sharing.Counted m ⟨⟨s.state.program, op.after s.state.owned⟩, c₁⟩ := by
        rwa [Sharing.Counted, hall₁]
      obtain ⟨halong, c, outs, he, hcounts⟩ := ih hcounted₁ hlive hmoves.2 hfits.2 hall₁
      have hfit : p.sharing.Fits m s.state (.other op) := by
        change PeerStreamer.Fits m (p.sharing.live s.state) [op]
        rw [hall]
        exact ⟨hfits.1, trivial⟩
      refine ⟨(along_cons_of_ok hs).mpr ⟨⟨⟨?_, hfit⟩, trivial⟩, halong⟩, c, none :: outs,
        exec_cons_eq_ok.mpr ⟨_, none, outs, hs, he, rfl⟩, hcounts⟩
      cases op with
      | create x =>
          change x ∉ s.state.owned + p.live s.state.program
          rw [hlive, add_zero]
          exact hmoves.1
      | dup x => exact hmoves.1
      | free x => exact hmoves.1

/-- What holds of the inputs among the surroundings holds along the run of the program. -/
lemma along_run {s : Surrounded σ κ} (h : Along p.surroundedStep (OnCalls P) s is) :
    Along p.run P s.program (Happening.calls is) := by
  induction is generalizing s with
  | nil => trivial
  | cons i is ih =>
      cases i with
      | call a =>
          refine ⟨h.1, fun t b hrun => ?_⟩
          have hs : p.surroundedStep s (.call a)
              = .ok (⟨t, s.owned + p.handed s.program a b⟩, some b) := by
            rw [surroundedStep, hrun]
            rfl
          exact ih (h.2 _ _ hs)
      | other op => exact ih (s := ⟨s.program, op.after s.owned⟩) (h.2 _ none rfl)

/-- Surroundings and program keep to the rules. -/
lemma Respects.keeps (h : p.Respects I P) :
    p.sharing.Keeps p.surroundedStep (fun s => I s.program)
      (fun s i => p.Allowed s i ∧ OnCalls P s i) := by
  rintro s i s' out hI ⟨hallowed, hP⟩ hs
  cases i with
  | call a =>
      obtain ⟨⟨t, b⟩, hrun, hret⟩ := Eval.bind_eq_ok.mp hs
      cases hret
      exact h _ _ _ _ _ hI hP hrun hallowed.1 hallowed.2
  | other op =>
      cases hs
      refine ⟨hI, ?_⟩
      cases op with
      | create x => exact ⟨hallowed, (Multiset.cons_add x _ _).symm⟩
      | dup x => exact ⟨Multiset.mem_add.mpr (Or.inl hallowed), (Multiset.cons_add x _ _).symm⟩
      | free x =>
          have hx : x ∈ s.owned := hallowed
          exact ⟨Multiset.mem_add.mpr (Or.inl hx), Multiset.erase_add_left_pos _ hx⟩

/-- A call whose references fit. -/
lemma Respects.call (h : p.Respects I P) {t₀ : σ} {c₀ : Counters κ} {M : Multiset κ} (hI : I t₀)
    (hc : p.sharing.Counted m ⟨⟨t₀, M⟩, c₀⟩) {a : α} {b : β}
    (hallowed : p.Allowed ⟨t₀, M⟩ (.call a)) (hP : P t₀ a)
    (hfits : p.sharing.Fits m ⟨t₀, M⟩ (.call a)) (hrun : p.run t₀ a = .ok (t, b)) :
    ∃ c, p.countedStep m ⟨⟨t₀, M⟩, c₀⟩ (.call a) = .ok (⟨⟨t, M + p.handed t₀ a b⟩, c⟩, some b)
      ∧ I t ∧ p.sharing.Counted m ⟨⟨t, M + p.handed t₀ a b⟩, c⟩ := by
  have hstep : p.surroundedStep ⟨t₀, M⟩ (.call a) = .ok (⟨t, M + p.handed t₀ a b⟩, some b) := by
    rw [surroundedStep, hrun]
    rfl
  have hrules : p.Allowed ⟨t₀, M⟩ (.call a) ∧ OnCalls P ⟨t₀, M⟩ (.call a) := ⟨hallowed, hP⟩
  exact Sharing.Keeps.step h.keeps (s := ⟨⟨t₀, M⟩, c₀⟩) hI hc hrules hfits hstep

/-- **A result about a program carries over** to the program among surroundings, with counters: what
`P` ensures of a run of the program alone, it ensures of every run with the counters in which the
surroundings pass what they have and the references fit. -/
theorem Respects.carries (h : p.Respects I P) (hI : I s.state.program)
    (hc : p.sharing.Counted m s)
    (hcareful : Along (p.countedStep m) (fun s i => p.Careful m s i ∧ OnCalls P s.state i) s is)
    {Q : σ → List β → Prop}
    (halone : Along p.run P s.state.program (Happening.calls is) →
      ∃ t bs, exec p.run s.state.program (Happening.calls is) = .ok (t, bs) ∧ Q t bs) :
    ∃ s' outs, exec (p.countedStep m) s is = .ok (s', outs)
      ∧ Q s'.state.program outs.reduceOption ∧ I s'.state.program ∧ p.sharing.Counted m s' := by
  have hboth : Along (p.countedStep m)
      (fun s i => (p.Allowed s.state i ∧ OnCalls P s.state i) ∧ p.sharing.Fits m s.state i) s is :=
    hcareful.mono fun s i hi => ⟨⟨hi.1.1, hi.2⟩, hi.1.2⟩
  have hplain := h.keeps.along hI hc hboth
  obtain ⟨t, bs, hrun, hQ⟩ := halone (along_run (hplain.mono fun s i hi => hi.1.2))
  obtain ⟨s', outs, hexec⟩ := exec_surroundedStep_of_run hrun
  obtain ⟨c, hcounted, hI', hc'⟩ := h.keeps.carries hI hc hexec hplain
  obtain ⟨rfl, rfl⟩ := ok_unique hrun (exec_surroundedStep hexec)
  exact ⟨_, outs, hcounted, hQ, hI', hc'⟩

end SharedProgram

end PeerStreamer
