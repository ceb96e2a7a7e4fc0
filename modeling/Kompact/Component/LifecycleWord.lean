import Kompact.Component.Lifecycle
import Kompact.Framework.Transition

/-!
# The lifecycle word under concurrent operations

Any number of threads change the word: the states are set by a loop of a load
and a compare-and-swap, the count is changed blindly by `fetch_add` and
`fetch_sub`, and what an operation answers is computed from the old word it
got, when other threads may have changed it again.

`Parts` is the invariant: the word has the last state set and the count that
was added and not subtracted. Every step keeps it (`Parts.step`), and does to
the parts of the word what the operation of `Lifecycle` does (`step_parts`).
`word_eq_parts` says what holds of the word in every run.
-/

namespace Kompact.LifecycleWord

open Lifecycle

/-! ## The operations on the word -/

inductive LifecycleState where
  | active (workCount : Nat)
  | passive (workCount : Nat)
  | destroyed
  | faulty
  | blocking
  deriving DecidableEq, Repr

/-- How an operation can end the process. -/
inductive Fault where
  /-- The unreachable branch of `from_current`. -/
  | invalidState
  | abort
  deriving DecidableEq, Repr

def fromCurrent (currentState : Nat) : Except Fault LifecycleState :=
  let flags := removeCount currentState
  if flags = Flag.active.bits then .ok (.active (removeFlags currentState))
  else if flags = Flag.passive.bits then .ok (.passive (removeFlags currentState))
  else if flags = Flag.destroyed.bits then .ok .destroyed
  else if flags = Flag.faulty.bits then .ok .faulty
  else if flags = Flag.blocking.bits then .ok .blocking
  else .error .invalidState

def LifecycleState.intoSchedulingDecision : LifecycleState → SchedulingDecision
  | .active workCount => if workCount = 0 then .schedule else .alreadyScheduled
  | .passive workCount => if workCount = 0 then .schedule else .alreadyScheduled
  | .destroyed => .noWork
  | .faulty => .noWork
  | .blocking => .noWork

def fetchAdd (word n : Nat) : Nat := (word + n) % 2 ^ 64

def fetchSub (word n : Nat) : Nat := (word + (2 ^ 64 - n % 2 ^ 64)) % 2 ^ 64

def validateAdd (oldNumber : Nat) : Except Fault Unit :=
  if removeFlags oldNumber < flagMask then .ok () else .error .abort

/-- `increment_work` behind its `fetch_add`. -/
def incrementWork (oldState : Nat) : Except Fault SchedulingDecision := do
  validateAdd oldState
  return (← fromCurrent oldState).intoSchedulingDecision

/-- `decrement_work` behind its `fetch_sub`. -/
def decrementWork (oldState workDone : Nat) : Except Fault SchedulingDecision :=
  let oldCount := removeFlags oldState
  if workDone ≤ oldCount then
    let newCount := oldCount - workDone
    .ok (if 0 < newCount then .schedule else .noWork)
  else .error .abort

/-! ## The threads -/

/-- Where a thread is. The parts of the word beside an old state, and the count
left beside a decrement, are what they were at the time. -/
inductive Pc where
  | idle
  /-- At the head of the loop of `set_state`. -/
  | setting (flag : Flag)
  | loaded (flag : Flag) (currentState : Nat)
  | incremented (oldState : Nat) (parts : Lifecycle)
  | decremented (oldState workDone : Nat) (left : Nat)

/-- What an operation answered. -/
inductive Answer where
  | increment (parts : Lifecycle) (decision : Except Fault SchedulingDecision)
  | decrement (left : Nat) (decision : Except Fault SchedulingDecision)
  | load (parts : Lifecycle) (state : Except Fault LifecycleState)

structure State where
  word : Nat
  threads : Nat → Pc
  /-- The last state set. -/
  lastSet : Flag
  /-- What was added to the count, and what was subtracted. -/
  added : Nat
  subtracted : Nat
  answers : List Answer

def State.goto (s : State) (t : Nat) (pc : Pc) : State := { s with threads := Function.update s.threads t pc }

/-- The parts that the word should have. -/
def State.parts (s : State) : Lifecycle := ⟨s.lastSet, s.added - s.subtracted⟩

def initialState : State where
  word := Flag.passive.bits
  threads _ := .idle
  lastSet := .passive
  added := 0
  subtracted := 0
  answers := []

inductive Action where
  /-- `set_active`, `set_passive`, `set_destroyed`, `set_faulty` or `set_blocking` is called. -/
  | set (t : Nat) (flag : Flag)
  | loadCurrent (t : Nat)
  | compareExchange (t : Nat)
  | fetchAdd (t : Nat)
  | fetchSub (t workDone : Nat)
  /-- `increment_work` or `decrement_work` returns. -/
  | answer (t : Nat)
  /-- `LifecycleState::load` -/
  | load (t : Nat)

def State.step (s : State) : Action → Option State
  | .set t flag =>
    match s.threads t with
    | .idle => some (s.goto t (.setting flag))
    | _ => none
  | .loadCurrent t =>
    match s.threads t with
    | .setting flag => some (s.goto t (.loaded flag s.word))
    | _ => none
  | .compareExchange t =>
    match s.threads t with
    | .loaded flag currentState =>
      if s.word = currentState then
        some ({ s with word := flag.bits ||| removeFlags currentState, lastSet := flag }.goto t .idle)
      else some (s.goto t (.setting flag))
    | _ => none
  | .fetchAdd t =>
    match s.threads t with
    | .idle =>
      some ({ s with word := LifecycleWord.fetchAdd s.word 1, added := s.added + 1 }.goto t
        (.incremented s.word s.parts))
    | _ => none
  | .fetchSub t workDone =>
    match s.threads t with
    | .idle =>
      some ({ s with word := LifecycleWord.fetchSub s.word workDone, subtracted := s.subtracted + workDone }.goto t
        (.decremented s.word workDone (s.added - (s.subtracted + workDone))))
    | _ => none
  | .answer t =>
    match s.threads t with
    | .incremented oldState parts =>
      some ({ s with answers := s.answers ++ [Answer.increment parts (incrementWork oldState)] }.goto t .idle)
    | .decremented oldState workDone left =>
      some ({ s with answers := s.answers ++ [Answer.decrement left (decrementWork oldState workDone)] }.goto t .idle)
    | _ => none
  | .load t =>
    match s.threads t with
    | .idle => some { s with answers := s.answers ++ [.load s.parts (fromCurrent s.word)] }
    | _ => none

/-- Never more is subtracted than was added, and the count stays below its largest value. -/
def Counts (s : State) : Action → Prop
  | .fetchAdd _ => s.added + 1 - s.subtracted < flagMask
  | .fetchSub _ workDone => s.subtracted + workDone ≤ s.added
  | _ => True

instance (s : State) (a : Action) : Decidable (Counts s a) := by
  cases a <;> unfold Counts <;> infer_instance

/-! ## What the operations do to the parts -/

variable {l : Lifecycle} {s s' : State} {a : Action}

/-- The state that a word with these parts stands for. -/
def stateOf (l : Lifecycle) : LifecycleState :=
  match l.flag with
  | .active => .active l.count
  | .passive => .passive l.count
  | .destroyed => .destroyed
  | .faulty => .faulty
  | .blocking => .blocking

theorem fromCurrent_toWord (h : l.count ≤ flagMask) : fromCurrent l.toWord = .ok (stateOf l) := by
  obtain ⟨flag, count⟩ := l
  unfold fromCurrent
  rw [removeCount_toWord h, removeFlags_toWord h]
  cases flag <;> simp [Flag.bits, stateOf]

theorem decision_stateOf (l : Lifecycle) : (stateOf l).intoSchedulingDecision = l.intoSchedulingDecision := by
  obtain ⟨flag, count⟩ := l
  cases flag <;> rfl

/-- `increment_work` answers from what the count was. -/
theorem incrementWork_toWord (h : l.count < flagMask) : incrementWork l.toWord = .ok l.intoSchedulingDecision := by
  have hle : l.count ≤ flagMask := Nat.le_of_lt h
  unfold incrementWork validateAdd
  rw [removeFlags_toWord hle, if_pos h, fromCurrent_toWord hle]
  exact congrArg Except.ok (decision_stateOf l)

/-- `decrement_work` answers from what is left. -/
theorem decrementWork_toWord {n : Nat} (h : l.count ≤ flagMask) (hn : n ≤ l.count) :
    decrementWork l.toWord n = .ok (if 0 < l.count - n then .schedule else .noWork) := by
  unfold decrementWork
  rw [removeFlags_toWord h]
  exact if_pos hn

theorem fetchAdd_toWord (h : l.count < flagMask) :
    fetchAdd l.toWord 1 = (Lifecycle.mk l.flag (l.count + 1)).toWord := by
  have hsome : l.incrementWork = some (l.intoSchedulingDecision, ⟨l.flag, l.count + 1⟩) := if_pos h
  exact (toWord_incrementWork hsome).1.symm

theorem fetchSub_toWord {n : Nat} (h : l.count ≤ flagMask) (hn : n ≤ l.count) :
    fetchSub l.toWord n = (Lifecycle.mk l.flag (l.count - n)).toWord := by
  have hsome : l.decrementWork n = some (if 0 < l.count - n then .schedule else .noWork, ⟨l.flag, l.count - n⟩) :=
    if_pos hn
  have hword := (toWord_decrementWork h hsome).1
  have hlt : (Lifecycle.mk l.flag (l.count - n)).toWord < 2 ^ 64 := by
    rw [toWord_eq (Nat.le_trans (Nat.sub_le _ _) h)]
    have hcount : l.count ≤ 2 ^ 61 - 1 := h
    cases l.flag <;> simp only [Flag.bits] <;> omega
  have hn' : n < 2 ^ 61 := by
    have hcount : l.count ≤ 2 ^ 61 - 1 := h
    omega
  unfold fetchSub
  omega

/-! ## The invariant -/

/-- An old state is a word with its parts, and there was enough to subtract from. -/
def Pc.Sound : Pc → Prop
  | .incremented oldState parts => oldState = parts.toWord ∧ parts.count < flagMask
  | .decremented oldState workDone left =>
    ∃ parts : Lifecycle, oldState = parts.toWord ∧ parts.count ≤ flagMask ∧ workDone ≤ parts.count ∧
      left = parts.count - workDone
  | _ => True

/-- An answer is the one for the parts that the word had. -/
def Answer.Sound : Answer → Prop
  | .increment parts decision => decision = .ok parts.intoSchedulingDecision
  | .decrement left decision => decision = .ok (if 0 < left then .schedule else .noWork)
  | .load parts state => state = .ok (stateOf parts)

structure Parts (s : State) : Prop where
  word : s.word = s.parts.toWord
  subtracted : s.subtracted ≤ s.added
  count : s.parts.count < flagMask
  threads : ∀ t, (s.threads t).Sound
  answers : ∀ answer ∈ s.answers, answer.Sound

theorem parts_initialState : Parts initialState where
  word := by decide
  subtracted := Nat.le_refl _
  count := by decide
  threads _ := trivial
  answers _ h := absurd h List.not_mem_nil

theorem Parts.goto (h : Parts s) (t : Nat) (pc : Pc) (hpc : pc.Sound) : Parts (s.goto t pc) where
  word := h.word
  subtracted := h.subtracted
  count := h.count
  threads t' := by
    by_cases ht : t' = t
    · subst ht
      show (Function.update s.threads t' pc t').Sound
      rwa [Function.update_self]
    · show (Function.update s.threads t pc t').Sound
      rw [Function.update_of_ne ht]
      exact h.threads t'
  answers := h.answers

theorem Parts.answered (h : Parts s) (answer : Answer) (ha : answer.Sound) :
    Parts { s with answers := s.answers ++ [answer] } where
  word := h.word
  subtracted := h.subtracted
  count := h.count
  threads := h.threads
  answers answer' hmem := by
    rcases List.mem_append.mp hmem with hmem | hmem
    · exact h.answers answer' hmem
    · rwa [List.mem_singleton.mp hmem]

theorem Parts.count_le (h : Parts s) : s.parts.count ≤ flagMask := Nat.le_of_lt h.count

/-- What a step does. -/
theorem step_eq (hs : s.step a = some s') :
    match a with
    | .set t flag => s' = s.goto t (.setting flag)
    | .loadCurrent t => ∃ flag, s' = s.goto t (.loaded flag s.word)
    | .compareExchange t => ∃ flag,
      s' = { s with word := flag.bits ||| removeFlags s.word, lastSet := flag }.goto t .idle ∨
        s' = s.goto t (.setting flag)
    | .fetchAdd t =>
      s' = { s with word := fetchAdd s.word 1, added := s.added + 1 }.goto t (.incremented s.word s.parts)
    | .fetchSub t workDone =>
      s' = { s with word := fetchSub s.word workDone, subtracted := s.subtracted + workDone }.goto t
        (.decremented s.word workDone (s.added - (s.subtracted + workDone)))
    | .answer t =>
      (∃ oldState parts, s.threads t = .incremented oldState parts ∧
        s' = { s with answers := s.answers ++ [Answer.increment parts (incrementWork oldState)] }.goto t .idle) ∨
      ∃ oldState workDone left, s.threads t = .decremented oldState workDone left ∧
        s' = { s with answers := s.answers ++ [Answer.decrement left (decrementWork oldState workDone)] }.goto t .idle
    | .load _ => s' = { s with answers := s.answers ++ [Answer.load s.parts (fromCurrent s.word)] } := by
  cases a with
  | compareExchange t =>
    simp only [State.step] at hs
    split at hs
    · rename_i flag currentState hpc
      split at hs
      · rename_i hword
        subst hword
        exact ⟨flag, .inl (Option.some.inj hs).symm⟩
      · exact ⟨flag, .inr (Option.some.inj hs).symm⟩
    · cases hs
  | loadCurrent t =>
    simp only [State.step] at hs
    split at hs
    · exact ⟨_, (Option.some.inj hs).symm⟩
    · cases hs
  | answer t =>
    simp only [State.step] at hs
    split at hs
    · exact .inl ⟨_, _, ‹_›, (Option.some.inj hs).symm⟩
    · exact .inr ⟨_, _, _, ‹_›, (Option.some.inj hs).symm⟩
    · cases hs
  | _ =>
    simp only [State.step] at hs
    split at hs
    · exact (Option.some.inj hs).symm
    · cases hs

/-- Every step keeps it. -/
theorem Parts.step (h : Parts s) (ha : Counts s a) (hs : s.step a = some s') : Parts s' := by
  cases a with
  | set t flag =>
    obtain rfl : s' = _ := step_eq hs
    exact h.goto t _ trivial
  | loadCurrent t =>
    obtain ⟨flag, rfl⟩ := step_eq hs
    exact h.goto t _ trivial
  | compareExchange t =>
    obtain ⟨flag, rfl | rfl⟩ := step_eq hs
    · have hword : flag.bits ||| removeFlags s.word = (s.parts.setState flag).toWord := by
        rw [toWord_setState h.count_le, ← h.word]
      have hset : Parts { s with word := flag.bits ||| removeFlags s.word, lastSet := flag } :=
        ⟨hword, h.subtracted, h.count, h.threads, h.answers⟩
      exact hset.goto t .idle trivial
    · exact h.goto t _ trivial
  | fetchAdd t =>
    obtain rfl : s' = _ := step_eq hs
    have hcount : s.added + 1 - s.subtracted < flagMask := ha
    have hmore : s.parts.count + 1 = s.added + 1 - s.subtracted := (Nat.sub_add_comm h.subtracted).symm
    have hword : LifecycleWord.fetchAdd s.word 1 = (Lifecycle.mk s.lastSet (s.added + 1 - s.subtracted)).toWord := by
      rw [h.word, fetchAdd_toWord h.count, hmore]
      rfl
    have hadd : Parts { s with word := LifecycleWord.fetchAdd s.word 1, added := s.added + 1 } :=
      ⟨hword, Nat.le_succ_of_le h.subtracted, hcount, h.threads, h.answers⟩
    exact hadd.goto t (.incremented s.word s.parts) ⟨h.word, h.count⟩
  | fetchSub t workDone =>
    obtain rfl : s' = _ := step_eq hs
    have hle : s.subtracted + workDone ≤ s.added := ha
    have hleft : s.added - (s.subtracted + workDone) = s.parts.count - workDone := (Nat.sub_sub ..).symm
    have hdone : workDone ≤ s.parts.count := Nat.le_sub_of_add_le' hle
    have hcount : s.added - (s.subtracted + workDone) < flagMask := by
      rw [hleft]
      exact Nat.lt_of_le_of_lt (Nat.sub_le _ _) h.count
    have hword : LifecycleWord.fetchSub s.word workDone =
        (Lifecycle.mk s.lastSet (s.added - (s.subtracted + workDone))).toWord := by
      rw [h.word, fetchSub_toWord h.count_le hdone, hleft]
      rfl
    have hsub : Parts { s with
        word := LifecycleWord.fetchSub s.word workDone, subtracted := s.subtracted + workDone } :=
      ⟨hword, hle, hcount, h.threads, h.answers⟩
    exact hsub.goto t (.decremented s.word workDone _) ⟨s.parts, h.word, h.count_le, hdone, hleft⟩
  | answer t =>
    have hsound := h.threads t
    rcases step_eq hs with ⟨oldState, parts, hpc, rfl⟩ | ⟨oldState, workDone, left, hpc, rfl⟩
    · rw [hpc] at hsound
      obtain ⟨rfl, hcount⟩ := hsound
      exact (h.answered (.increment parts _) (incrementWork_toWord hcount)).goto t .idle trivial
    · rw [hpc] at hsound
      obtain ⟨parts, rfl, hcount, hdone, rfl⟩ := hsound
      exact (h.answered (.decrement _ _) (decrementWork_toWord hcount hdone)).goto t .idle trivial
  | load t =>
    obtain rfl : s' = _ := step_eq hs
    have hload : fromCurrent s.word = .ok (stateOf s.parts) := by rw [h.word, fromCurrent_toWord h.count_le]
    exact h.answered (.load s.parts _) hload

theorem parts_reach (h : Reach State.step Counts initialState s) : Parts s :=
  h.invariant Parts parts_initialState Parts.step

/-! ## The word in every run -/

/-- What an action may do to the parts of the word: an operation of `Lifecycle`, or nothing. -/
def Moves (l l' : Lifecycle) : Action → Prop
  | .compareExchange _ => l' = l ∨ ∃ flag, l' = l.setState flag
  | .fetchAdd _ => l.incrementWork = some (l.intoSchedulingDecision, l')
  | .fetchSub _ workDone => l.decrementWork workDone = some (if 0 < l'.count then .schedule else .noWork, l')
  | _ => l' = l

/-- The word follows `Lifecycle`. -/
theorem step_parts (h : Parts s) (ha : Counts s a) (hs : s.step a = some s') : Moves s.parts s'.parts a := by
  cases a with
  | compareExchange t =>
    obtain ⟨flag, rfl | rfl⟩ := step_eq hs
    · exact .inr ⟨flag, rfl⟩
    · exact .inl rfl
  | fetchAdd t =>
    obtain rfl : s' = _ := step_eq hs
    have hmore : s.parts.count + 1 = s.added + 1 - s.subtracted := (Nat.sub_add_comm h.subtracted).symm
    have hsome : s.parts.incrementWork =
        some (s.parts.intoSchedulingDecision, ⟨s.lastSet, s.parts.count + 1⟩) := if_pos h.count
    rw [hmore] at hsome
    exact hsome
  | fetchSub t workDone =>
    obtain rfl : s' = _ := step_eq hs
    have hdone : workDone ≤ s.parts.count := Nat.le_sub_of_add_le' ha
    have hleft : s.parts.count - workDone = s.added - (s.subtracted + workDone) := Nat.sub_sub ..
    have hsome : s.parts.decrementWork workDone =
        some (if 0 < s.parts.count - workDone then .schedule else .noWork,
          ⟨s.lastSet, s.parts.count - workDone⟩) := if_pos hdone
    rw [hleft] at hsome
    exact hsome
  | answer t =>
    rcases step_eq hs with ⟨_, _, _, rfl⟩ | ⟨_, _, _, _, rfl⟩
    · rfl
    · rfl
  | loadCurrent t =>
    obtain ⟨flag, rfl⟩ := step_eq hs
    rfl
  | _ =>
    obtain rfl : s' = _ := step_eq hs
    rfl

/-- The part of the word that an action must leave alone is the same after it. -/
def Undisturbed (word word' : Nat) : Action → Prop
  | .compareExchange _ => removeFlags word' = removeFlags word
  | .fetchAdd _ | .fetchSub _ _ => removeCount word' = removeCount word
  | _ => word' = word

theorem Parts.removeFlags_eq (h : Parts s) : removeFlags s.word = s.parts.count := by
  rw [h.word, removeFlags_toWord h.count_le]

theorem Parts.removeCount_eq (h : Parts s) : removeCount s.word = s.lastSet.bits := by
  rw [h.word, removeCount_toWord h.count_le]
  rfl

theorem undisturbed_step (h : Parts s) (ha : Counts s a) (hs : s.step a = some s') :
    Undisturbed s.word s'.word a := by
  have h' := h.step ha hs
  have hmoves := step_parts h ha hs
  cases a with
  | compareExchange t =>
    show removeFlags s'.word = removeFlags s.word
    rw [h'.removeFlags_eq, h.removeFlags_eq]
    rcases hmoves with heq | ⟨flag, heq⟩
    · rw [heq]
    · rw [heq]
      rfl
  | fetchAdd t =>
    show removeCount s'.word = removeCount s.word
    obtain rfl : s' = _ := step_eq hs
    rw [h'.removeCount_eq, h.removeCount_eq]
    rfl
  | fetchSub t workDone =>
    show removeCount s'.word = removeCount s.word
    obtain rfl : s' = _ := step_eq hs
    rw [h'.removeCount_eq, h.removeCount_eq]
    rfl
  | _ =>
    show s'.word = s.word
    rw [h'.word, h.word, show s'.parts = s.parts from hmoves]

/-- In every run the flag bits are the last state set and the other bits what was added and not
subtracted; `from_current` finds the state, every operation answered for the parts it met, and no step
disturbs the part it does not change. -/
theorem word_eq_parts (h : Reach State.step Counts initialState s) :
    removeCount s.word = s.lastSet.bits ∧ removeFlags s.word + s.subtracted = s.added ∧
      fromCurrent s.word = .ok (stateOf ⟨s.lastSet, s.added - s.subtracted⟩) ∧
      (∀ answer ∈ s.answers, answer.Sound) ∧
      ∀ a s', Counts s a → s.step a = some s' → Undisturbed s.word s'.word a := by
  have hp := parts_reach h
  have hcount : removeFlags s.word + s.subtracted = s.added := by
    rw [hp.removeFlags_eq]
    exact Nat.sub_add_cancel hp.subtracted
  have hload : fromCurrent s.word = .ok (stateOf s.parts) := by rw [hp.word, fromCurrent_toWord hp.count_le]
  exact ⟨hp.removeCount_eq, hcount, hload, hp.answers, fun _ _ ha hs => undisturbed_step hp ha hs⟩

/-- A thread sets the state while another one adds and subtracts: its first exchange fails. -/
def overtaken : List Action :=
  [.set 0 .active, .loadCurrent 0, .fetchAdd 1, .compareExchange 0, .loadCurrent 0, .compareExchange 0, .answer 1,
    .fetchAdd 1, .fetchSub 0 1, .answer 1, .answer 0, .load 0]

theorem word_eq_parts_overtaken :
    ∃ s, Reach State.step Counts initialState s ∧ s.lastSet = .active ∧ s.added = 2 ∧ s.answers.length = 4 ∧
      removeCount s.word = s.lastSet.bits ∧ removeFlags s.word + s.subtracted = s.added := by
  have hs : Reach State.step Counts initialState _ := Reach.of_run overtaken (by decide) (by decide)
  exact ⟨_, hs, by decide, by decide, by decide, (word_eq_parts hs).1, (word_eq_parts hs).2.1⟩

end Kompact.LifecycleWord
