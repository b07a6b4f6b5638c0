import Mathlib.Tactic

/-!
# Time values

`struct timeval` and the operations of `sys/time.h` on it.  A time is also a number of microseconds
(`toUsec`); for normalised values the two agree, which is what the lemmas below say.
-/

namespace PeerStreamer

/-- `struct timeval` -/
@[ext]
structure Timeval where
  sec : ℤ
  usec : ℤ
  deriving DecidableEq, Repr

namespace Timeval

/-- `timeradd` -/
def timeradd (a b : Timeval) : Timeval :=
  if a.usec + b.usec ≥ 1000000 then ⟨a.sec + b.sec + 1, a.usec + b.usec - 1000000⟩
  else ⟨a.sec + b.sec, a.usec + b.usec⟩

/-- `timersub` -/
def timersub (a b : Timeval) : Timeval :=
  if a.usec - b.usec < 0 then ⟨a.sec - b.sec - 1, a.usec - b.usec + 1000000⟩
  else ⟨a.sec - b.sec, a.usec - b.usec⟩

/-- `timercmp` for `<`. -/
def timercmpLt (a b : Timeval) : Bool := if a.sec = b.sec then a.usec < b.usec else a.sec < b.sec

/-- What `gettimeofday` stores when the clock stands at `now`, in microseconds. -/
def gettimeofday (now : ℤ) : Timeval := ⟨now / 1000000, now % 1000000⟩

/-- The microseconds are between 0 and 999999. -/
def Normalised (t : Timeval) : Prop := 0 ≤ t.usec ∧ t.usec < 1000000

instance (t : Timeval) : Decidable t.Normalised := inferInstanceAs (Decidable (_ ∧ _))

/-- The time in microseconds. -/
def toUsec (t : Timeval) : ℤ := t.sec * 1000000 + t.usec

variable {a b : Timeval}

lemma gettimeofday_normalised (now : ℤ) : (gettimeofday now).Normalised := by
  simp only [gettimeofday, Normalised]
  omega

@[simp] lemma gettimeofday_toUsec (now : ℤ) : (gettimeofday now).toUsec = now := by
  simp only [gettimeofday, toUsec]
  omega

/-- The order of normalised times is that of the microseconds. -/
lemma timercmpLt_iff (ha : a.Normalised) (hb : b.Normalised) :
    a.timercmpLt b = true ↔ a.toUsec < b.toUsec := by
  obtain ⟨ha₀, ha₁⟩ := ha
  obtain ⟨hb₀, hb₁⟩ := hb
  simp only [timercmpLt, toUsec]
  split_ifs <;> simp only [decide_eq_true_eq] <;> omega

@[simp] lemma timersub_toUsec : (a.timersub b).toUsec = a.toUsec - b.toUsec := by
  simp only [timersub, toUsec]
  split_ifs <;> dsimp only <;> omega

lemma timersub_normalised (ha : a.Normalised) (hb : b.Normalised) : (a.timersub b).Normalised := by
  obtain ⟨ha₀, ha₁⟩ := ha
  obtain ⟨hb₀, hb₁⟩ := hb
  simp only [timersub, Normalised]
  split_ifs <;> dsimp only <;> omega

end Timeval

end PeerStreamer
