import Mathlib.Tactic.Ring
import Mathlib.Algebra.Order.Ring.Nat
import Mathlib.Data.Nat.Bitwise

/-!
# The lifecycle word

A component's state and its work count share one atomic 64-bit word: the
state in the three upper bits, the count in the others. `Lifecycle` is the
word taken apart, `Lifecycle.toWord` puts it together.

The operations are given on the parts. They do on the word what the code does
(`removeFlags_toWord`, `removeCount_toWord`, `toWord_incrementWork`,
`toWord_decrementWork`, `toWord_setState`).
-/

namespace Kompact

/-- Whether a component is to be sent to the scheduler. -/
inductive SchedulingDecision where
  | schedule
  | alreadyScheduled
  | noWork
  | blocked
  | resume
  deriving DecidableEq, Repr

namespace SchedulingDecision

/-- The decision, or where it is `noWork` the other one: anything that
indicates work means that the component resumes at once. -/
def orUse : SchedulingDecision → SchedulingDecision → SchedulingDecision
  | noWork, schedule => resume
  | noWork, resume => resume
  | noWork, alreadyScheduled => resume
  | noWork, d => d
  | d, _ => d

/-- The decision asks for another execution. -/
def Runs (d : SchedulingDecision) : Prop := d = schedule ∨ d = resume

instance (d : SchedulingDecision) : Decidable d.Runs := inferInstanceAs (Decidable (_ ∨ _))

end SchedulingDecision

/-- A lifecycle event. -/
inductive ControlEvent where
  | start
  | stop
  | kill
  | poll (tag : Nat)
  deriving DecidableEq, Repr

/-- The state of a component. -/
inductive Flag where
  | active
  | passive
  | destroyed
  | faulty
  | blocking
  deriving DecidableEq, Repr

/-- `FLAG_MASK`, the largest work count. -/
def flagMask : Nat := 2 ^ 61 - 1

/-- The bits of a state. -/
def Flag.bits : Flag → Nat
  | active => 0
  | passive => 1 * 2 ^ 61
  | destroyed => 2 * 2 ^ 61
  | faulty => 3 * 2 ^ 61
  | blocking => 4 * 2 ^ 61

/-- The state and the work count. -/
structure Lifecycle where
  flag : Flag
  count : Nat
  deriving DecidableEq, Repr

namespace Lifecycle

/-- A new component is passive and has no work. -/
def initialState : Lifecycle := ⟨.passive, 0⟩

def intoSchedulingDecision (l : Lifecycle) : SchedulingDecision :=
  match l.flag with
  | .active => if l.count = 0 then .schedule else .alreadyScheduled
  | .passive => if l.count = 0 then .schedule else .alreadyScheduled
  | .destroyed => .noWork
  | .faulty => .noWork
  | .blocking => .noWork

/-- Add one to the count and decide from what it was. The process aborts,
here `none`, at the largest count. -/
def incrementWork (l : Lifecycle) : Option (SchedulingDecision × Lifecycle) :=
  if l.count < flagMask then some (l.intoSchedulingDecision, { l with count := l.count + 1 }) else none

/-- Subtract from the count and decide from what is left. The process aborts,
here `none`, where there is less than what is subtracted. -/
def decrementWork (l : Lifecycle) (workDone : Nat) : Option (SchedulingDecision × Lifecycle) :=
  if workDone ≤ l.count then
    let newCount := l.count - workDone
    some (if 0 < newCount then .schedule else .noWork, { l with count := newCount })
  else none

/-- `set_active`, `set_passive`, `set_destroyed`, `set_faulty` and
`set_blocking`: the loop around compare-and-swap ends with an exchange of the
flags at one instant, with the count of that instant. -/
def setState (l : Lifecycle) (flag : Flag) : Lifecycle := { l with flag }

def isActive (l : Lifecycle) : Bool := l.flag = .active

/-! ## The word -/

/-- The word with these parts. -/
def toWord (l : Lifecycle) : Nat := l.flag.bits ||| l.count

def removeFlags (word : Nat) : Nat := word &&& flagMask

/-- `number & !FLAG_MASK`, on 64 bits. -/
def removeCount (word : Nat) : Nat := word &&& (2 ^ 64 - 1 - flagMask)

theorem toWord_eq {l : Lifecycle} (h : l.count ≤ flagMask) : l.toWord = l.flag.bits + l.count := by
  have hc : l.count < 2 ^ 61 := by unfold flagMask at h; omega
  obtain ⟨k, hk⟩ : ∃ k, l.flag.bits = 2 ^ 61 * k := by
    cases l.flag
    · exact ⟨0, rfl⟩
    · exact ⟨1, rfl⟩
    · exact ⟨2, rfl⟩
    · exact ⟨3, rfl⟩
    · exact ⟨4, rfl⟩
  rw [toWord, hk, Nat.two_pow_add_eq_or_of_lt hc]

theorem removeFlags_toWord {l : Lifecycle} (h : l.count ≤ flagMask) : removeFlags l.toWord = l.count := by
  have hc : l.count < 2 ^ 61 := by unfold flagMask at h; omega
  rw [removeFlags, flagMask, Nat.and_two_pow_sub_one_eq_mod, toWord_eq h]
  cases l.flag <;> simp only [Flag.bits] <;> omega

theorem removeCount_toWord {l : Lifecycle} (h : l.count ≤ flagMask) : removeCount l.toWord = l.flag.bits := by
  have hc : l.count < 2 ^ 61 := by unfold flagMask at h; omega
  have hmask : 2 ^ 64 - 1 - flagMask = 7 <<< 61 := by decide
  have hcount : l.count &&& 7 <<< 61 = 0 := by
    apply Nat.eq_of_testBit_eq
    intro i
    rw [Nat.testBit_and, Nat.testBit_shiftLeft, Nat.zero_testBit]
    rcases Nat.lt_or_ge i 61 with hi | hi
    · simp [show ¬ 61 ≤ i by omega]
    · rw [Nat.testBit_lt_two_pow (Nat.lt_of_lt_of_le hc (Nat.pow_le_pow_right (by decide) hi)), Bool.false_and]
  have hflag : l.flag.bits &&& 7 <<< 61 = l.flag.bits := by cases l.flag <;> decide
  rw [removeCount, hmask, toWord, Nat.and_or_distrib_right, hcount, hflag, Nat.or_zero]

/-- The `fetch_add` of `increment_work` does not wrap where the process goes on. -/
theorem toWord_incrementWork {l l' : Lifecycle} {d : SchedulingDecision} (h : l.incrementWork = some (d, l')) :
    l'.toWord = (l.toWord + 1) % 2 ^ 64 ∧ l'.count ≤ flagMask := by
  unfold incrementWork at h
  split at h
  · rename_i hlt
    obtain ⟨-, rfl⟩ := Prod.mk.inj (Option.some.inj h)
    have hle : l.count + 1 ≤ flagMask := hlt
    refine ⟨?_, hle⟩
    rw [toWord_eq (l := ⟨l.flag, l.count + 1⟩) hle, toWord_eq (l := l) (by omega)]
    unfold flagMask at hle
    cases l.flag <;> simp only [Flag.bits] <;> omega
  · cases h

/-- Nor does the `fetch_sub` of `decrement_work`. -/
theorem toWord_decrementWork {l l' : Lifecycle} {n : Nat} {d : SchedulingDecision} (hl : l.count ≤ flagMask)
    (h : l.decrementWork n = some (d, l')) : l'.toWord + n = l.toWord ∧ l'.count ≤ flagMask := by
  unfold decrementWork at h
  split at h
  · rename_i hle
    obtain ⟨-, rfl⟩ := Prod.mk.inj (Option.some.inj h)
    have hle' : l.count - n ≤ flagMask := by omega
    refine ⟨?_, hle'⟩
    rw [toWord_eq (l := ⟨l.flag, l.count - n⟩) hle', toWord_eq hl]
    show l.flag.bits + (l.count - n) + n = _
    omega
  · cases h

theorem toWord_setState {l : Lifecycle} (h : l.count ≤ flagMask) (flag : Flag) :
    (l.setState flag).toWord = flag.bits ||| removeFlags l.toWord := by
  rw [removeFlags_toWord h]; rfl

end Lifecycle

end Kompact
