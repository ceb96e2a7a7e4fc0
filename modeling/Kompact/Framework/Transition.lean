import Mathlib.Logic.Basic

/-!
# Runs of a transition system

A system with states `S` takes an action `a` where `step s a` is defined.
`Reach step ok s₀` are the states some run from `s₀` reaches whose steps all
meet the condition `ok` (on the state before the step and the action); with
the condition `fun _ _ => True` these are all reachable states.

`Reach.invariant` is the rule for invariants, `Reach.of_run` gives a run by
its actions.
-/

namespace Kompact

variable {S A : Type}

/-- Reached from `s₀` by steps that meet `ok`. -/
inductive Reach (step : S → A → Option S) (ok : S → A → Prop) (s₀ : S) : S → Prop
  | init : Reach step ok s₀ s₀
  | step {s s' : S} {a : A} (h : Reach step ok s₀ s) (hok : ok s a) (hs : step s a = some s') :
      Reach step ok s₀ s'

variable {step : S → A → Option S} {ok : S → A → Prop} {s₀ s : S}

/-- What holds initially and is kept by every step holds in every state reached. -/
theorem Reach.invariant (Inv : S → Prop) (h₀ : Inv s₀)
    (hstep : ∀ {s s' a}, Inv s → ok s a → step s a = some s' → Inv s') (h : Reach step ok s₀ s) : Inv s := by
  induction h with
  | init => exact h₀
  | step _ hok hs ih => exact hstep ih hok hs

/-- The state after the given actions, if they can be taken in this order. -/
def runActions (step : S → A → Option S) : S → List A → Option S
  | s, [] => some s
  | s, a :: as => (step s a).bind fun s' => runActions step s' as

/-- Whether the condition holds at every step of a run. -/
def runMeets (step : S → A → Option S) (ok : S → A → Prop) : S → List A → Prop
  | _, [] => True
  | s, a :: as => ok s a ∧ ∀ s' ∈ step s a, runMeets step ok s' as

def runMeets.decidable (step : S → A → Option S) (ok : S → A → Prop) [∀ s a, Decidable (ok s a)] :
    (s : S) → (as : List A) → Decidable (runMeets step ok s as)
  | _, [] => inferInstanceAs (Decidable True)
  | s, a :: as =>
    have : Decidable (∀ s' ∈ step s a, runMeets step ok s' as) :=
      match step s a with
      | none => isTrue (fun _ h => by cases h)
      | some s' =>
        have := runMeets.decidable step ok s' as
        decidable_of_iff (runMeets step ok s' as) (by simp)
    inferInstanceAs (Decidable (_ ∧ _))

instance [∀ s a, Decidable (ok s a)] (s : S) (as : List A) : Decidable (runMeets step ok s as) :=
  runMeets.decidable step ok s as

theorem runActions_append (s : S) (as bs : List A) :
    runActions step s (as ++ bs) = (runActions step s as).bind fun s' => runActions step s' bs := by
  induction as generalizing s with
  | nil => rfl
  | cons a as ih =>
    simp only [List.cons_append, runActions]
    cases step s a with
    | none => rfl
    | some s' => exact ih s'

theorem runMeets_append {s : S} {as bs : List A} :
    runMeets step ok s (as ++ bs) ↔ runMeets step ok s as ∧ ∀ s' ∈ runActions step s as, runMeets step ok s' bs := by
  induction as generalizing s with
  | nil => simp [runMeets, runActions]
  | cons a as ih =>
    simp only [List.cons_append, runMeets, runActions]
    cases step s a with
    | none => simp
    | some s' => simp [ih, and_assoc]

theorem runMeets.of_prefix {s : S} {as bs : List A} (h : runMeets step ok s bs) (hp : as <+: bs) :
    runMeets step ok s as := by
  obtain ⟨cs, rfl⟩ := hp
  exact (runMeets_append.mp h).1

theorem Reach.run {s s' : S} {as : List A} (h : Reach step ok s₀ s) (hr : runActions step s as = some s')
    (hm : runMeets step ok s as) : Reach step ok s₀ s' := by
  induction as generalizing s with
  | nil =>
    obtain rfl := Option.some.inj hr
    exact h
  | cons a as ih =>
    obtain ⟨s₁, hs₁, hr₁⟩ := Option.bind_eq_some_iff.mp hr
    exact ih (.step h hm.1 hs₁) hr₁ (hm.2 s₁ hs₁)

/-- A state reached by the given actions. -/
theorem Reach.of_run (as : List A) (h : (runActions step s₀ as).isSome) (hm : runMeets step ok s₀ as) :
    Reach step ok s₀ ((runActions step s₀ as).get h) :=
  Reach.run .init (Option.some_get h).symm hm

/-- Where the actions meet the condition in every state. -/
theorem runMeets_of_forall {as : List A} (h : ∀ a ∈ as, ∀ s, ok s a) (s : S) : runMeets step ok s as := by
  induction as generalizing s with
  | nil => trivial
  | cons a as ih =>
    exact ⟨h a (List.mem_cons_self ..) s, fun s' _ => ih (fun b hb => h b (List.mem_cons_of_mem _ hb)) s'⟩

theorem runMeets_true (s : S) (as : List A) : runMeets step (fun _ _ => True) s as := by
  induction as generalizing s with
  | nil => trivial
  | cons a as ih => exact ⟨trivial, fun s' _ => ih s'⟩

end Kompact
