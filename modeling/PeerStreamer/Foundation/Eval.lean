import Mathlib.Data.Rat.Floor
import Mathlib.Tactic

/-!
# Evaluating C

A C function either computes its result or does something the language leaves undefined.  `Eval`
is the result of a modelled function that can do the latter, with the kind of undefined behaviour
as the error, so that "the program never does X" is the statement that the value is an `.ok`.  The
lemmas of the namespace `Eval` hold for any other kind of error as well.

`cint` and `cmod` are the checked forms of the `int` operations, and `sizeT` the wrap of a
`size_t` computation.  Floating point numbers are rationals; what is checked of them is that they
are finite.
-/

namespace PeerStreamer

/-- The kinds of undefined behaviour the modelled code can reach. -/
inductive Undefined
  | nullDereference
  | uninitialised
  | outOfBounds
  | useAfterFree
  | signedOverflow
  | divisionByZero
  deriving DecidableEq, Repr

/-- The outcome of evaluating C code. -/
abbrev Eval (α : Type) := Except Undefined α

namespace Eval

variable {ε α β : Type}

/-- A bind that succeeds is a first part that succeeds followed by a second that does. -/
lemma bind_eq_ok {x : Except ε α} {g : α → Except ε β} {b : β} :
    (x >>= g) = .ok b ↔ ∃ a, x = .ok a ∧ g a = .ok b := by
  cases x with
  | error e => simp [bind, Except.bind]
  | ok a => simp [bind, Except.bind]

@[simp] lemma ok_bind (a : α) (g : α → Except ε β) : ((.ok a : Except ε α) >>= g) = g a := rfl

@[simp] lemma error_bind (e : ε) (g : α → Except ε β) :
    ((.error e : Except ε α) >>= g) = .error e := rfl

@[simp] lemma pure_eq_ok (a : α) : (pure a : Except ε α) = .ok a := rfl

/-- A computation that can be run to see that it succeeds. -/
lemma exists_ok {x : Except ε α} (h : x.isOk = true) : ∃ a, x = .ok a := by
  cases x with
  | error e => cases h
  | ok a => exact ⟨a, rfl⟩

/-- Computations over a list that all succeed. -/
lemma mapM_eq_ok {f : α → Except ε β} {g : α → β} {l : List α} (h : ∀ x ∈ l, f x = .ok (g x)) :
    l.mapM f = .ok (l.map g) := by
  induction l with
  | nil => rfl
  | cons x l ih =>
      rw [List.mapM_cons, h x (by simp), ok_bind, ih fun y hy => h y (by simp [hy])]
      rfl

lemma exists_mapM {f : α → Except ε β} {l : List α} (h : ∀ x ∈ l, ∃ y, f x = .ok y) :
    ∃ ys, l.mapM f = .ok ys := by
  induction l with
  | nil => exact ⟨[], rfl⟩
  | cons x l ih =>
      obtain ⟨y, hy⟩ := h x (by simp)
      obtain ⟨ys, hys⟩ := ih fun z hz => h z (by simp [hz])
      exact ⟨y :: ys, by simp [List.mapM_cons, hy, hys]⟩

end Eval

/-! ## Machine integers -/

def INT_MAX : ℤ := 2 ^ 31 - 1
def INT_MIN : ℤ := -2 ^ 31

/-- The values of type `int`. -/
abbrev CInt := { z : ℤ // INT_MIN ≤ z ∧ z ≤ INT_MAX }

/-- The result of an `int` operation, if it is representable. -/
def cint (z : ℤ) : Eval ℤ :=
  if INT_MIN ≤ z ∧ z ≤ INT_MAX then .ok z else .error .signedOverflow

/-- The operator `%`, which truncates towards zero. -/
def cmod (a b : ℤ) : Eval ℤ :=
  if b = 0 then .error .divisionByZero else .ok (a.tmod b)

lemma cint_ok {z : ℤ} (h₁ : INT_MIN ≤ z) (h₂ : z ≤ INT_MAX) : cint z = .ok z :=
  if_pos ⟨h₁, h₂⟩

lemma eq_of_cint_eq_ok {z w : ℤ} (h : cint z = .ok w) : w = z := by
  rw [cint] at h
  split_ifs at h
  exact (Except.ok.inj h).symm

lemma bounds_of_cint_eq_ok {z w : ℤ} (h : cint z = .ok w) : INT_MIN ≤ z ∧ z ≤ INT_MAX := by
  rw [cint] at h
  split_ifs at h with hz
  exact hz

lemma cmod_ok {a b : ℤ} (ha : 0 ≤ a) (hb : 0 < b) : cmod a b = .ok (a % b) := by
  rw [cmod, if_neg hb.ne', Int.tmod_eq_emod_of_nonneg ha]

/-- The value of a `size_t` computation. -/
def sizeT (n : ℕ) : ℕ := n % 2 ^ 64

/-! ## Floating point -/

/-- A quotient of `double`s that is to become an integer: it has to be finite. -/
def finiteQuotient (x y : ℚ) : Eval ℚ := if y = 0 then .error .divisionByZero else return x / y

/-- The conversion of a `double` to an integer type. -/
def truncate (x : ℚ) : ℤ := if 0 ≤ x then ⌊x⌋ else ⌈x⌉

end PeerStreamer
