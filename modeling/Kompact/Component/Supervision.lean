import Kompact.Buffers.Memory
import Kompact.Framework.AssocMap
import Kompact.Framework.Transition
import Mathlib.Order.BooleanAlgebra.Set

/-!
# The supervisor

The supervisor keeps the components that were started and did not end, who is
to be told of what happens to them, and the promise of a shutdown that waits for
them. It handles one message after the other (`step`), in whatever order they
come.

`supervisor_run` says what holds in every run whose steps are `Sound`. Others are
possible and go wrong: the kill of a component that was never started is told to
no one, a shutdown replaces an earlier one whose promise is then dropped, and
what starts after a shutdown is complete is not killed.
-/

namespace Kompact.Supervision

variable {Id P : Type} [DecidableEq Id]

inductive ListenEvent (Id : Type) where
  | started (id : Id)
  | stopped (id : Id)
  | destroyed (id : Id)
  deriving DecidableEq, Repr

namespace ListenEvent

def id : ListenEvent Id → Id
  | started id => id
  | stopped id => id
  | destroyed id => id

def isStarted : ListenEvent Id → Bool
  | started _ => true
  | _ => false

def isStopped : ListenEvent Id → Bool
  | stopped _ => true
  | _ => false

def isDestroyed : ListenEvent Id → Bool
  | destroyed _ => true
  | _ => false

end ListenEvent

/-- A component, as the supervisor holds it. -/
structure Container (Id : Type) where
  id : Id
  deriving DecidableEq, Repr

/-- A promise in a mutex that may have several owners. -/
structure SharedPromise (P : Type) where
  promise : P
  owners : Nat
  poisoned : Bool
  deriving DecidableEq, Repr

inductive SupervisorMsg (Id P : Type) where
  | started (c : Container Id)
  | stopped (id : Id)
  | killed (id : Id)
  | faulty (id : Id)
  | listen (amp : SharedPromise P) (event : ListenEvent Id)
  | shutdown (amp : SharedPromise P)

structure ComponentSupervisor (Id P : Type) where
  children : AssocMap Id (Container Id)
  listeners : AssocMap Id (List (ListenEvent Id × P))
  shutdown : Option P

/-- The supervisor and what it did: the promises it called `complete` on, those of
them that were of a shutdown, the components it sent `Kill` to, and those whose
recovery handler it ran. -/
structure World (Id P : Type) where
  sup : ComponentSupervisor Id P
  completed : List P
  closed : List P
  kills : List Id
  recovered : List Id

namespace World

def new : World Id P := ⟨⟨∅, ∅, none⟩, [], [], [], []⟩

/-- Complete the promises of the listeners for `id` that are selected; an error
is only logged. -/
def notifyListeners (w : World Id P) (id : Id) (selector : ListenEvent Id → Bool) : World Id P :=
  match w.sup.listeners.lookup id with
  | some l =>
    { w with
      sup := { w.sup with listeners := w.sup.listeners.insert id (l.filter fun entry => !selector entry.1) }
      completed := w.completed ++ (l.filter fun entry => selector entry.1).map Prod.snd }
  | none => w

def dropListeners (w : World Id P) (id : Id) : World Id P :=
  { w with sup := { w.sup with listeners := w.sup.listeners.erase id } }

/-- Complete the promise of a shutdown, which fails if its future is gone. -/
def completeShutdown (gone : P → Bool) (w : World Id P) (promise : P) : Panics (World Id P) :=
  if gone promise then .error "Could not fulfill shutdown promise!"
  else .ok { w with
    sup := { w.sup with listeners := ∅ }
    completed := w.completed ++ [promise]
    closed := w.closed ++ [promise] }

def shutdownIfNoMoreChildren (gone : P → Bool) (w : World Id P) : Panics (World Id P) :=
  match w.sup.shutdown with
  | some promise =>
    if w.sup.children.keys = [] then
      completeShutdown gone { w with sup := { w.sup with shutdown := none } } promise
    else .ok w
  | none => .ok w

/-- A component started; during a shutdown it is killed at once. -/
def handleStarted (w : World Id P) (c : Container Id) : World Id P :=
  let w := { w with sup := { w.sup with children := w.sup.children.insert c.id c } }
  let w := w.notifyListeners c.id ListenEvent.isStarted
  if w.sup.shutdown.isSome then { w with kills := w.kills ++ [c.id] } else w

def handleKilled (w : World Id P) (id : Id) : World Id P :=
  match w.sup.children.lookup id with
  | some _ =>
    let w := { w with sup := { w.sup with children := w.sup.children.erase id } }
    (w.notifyListeners id ListenEvent.isDestroyed).dropListeners id
  | none => w

def handleFaulty (w : World Id P) (id : Id) : World Id P :=
  let w := w.dropListeners id
  let w := { w with sup := { w.sup with children := w.sup.children.erase id } }
  if w.sup.shutdown.isNone then { w with recovered := w.recovered ++ [id] } else w

def handleListen (w : World Id P) (promise : P) (event : ListenEvent Id) : World Id P :=
  { w with sup := { w.sup with
    listeners := w.sup.listeners.insert event.id ((w.sup.listeners.lookupD event.id []) ++ [(event, promise)]) } }

def handleShutdown (gone : P → Bool) (w : World Id P) (promise : P) : Panics (World Id P) :=
  if w.sup.children.keys = [] then w.completeShutdown gone promise
  else .ok { w with
    sup := { w.sup with shutdown := some promise }
    kills := w.kills ++ w.sup.children.entries.map fun entry => entry.2.id }

/-- Take the promise out of its mutex, if nobody else owns it. -/
def tryUnwrap (amp : SharedPromise P) : Panics (Option P) :=
  if amp.owners ≠ 1 then .ok none
  else if amp.poisoned then .error "Someone broke the promise mutex -.-"
  else .ok (some amp.promise)

/-- Handle a message, when the futures of the promises `gone` have been dropped. -/
def handle (gone : P → Bool) (w : World Id P) : SupervisorMsg Id P → Panics (World Id P)
  | .started c => .ok (w.handleStarted c)
  | .stopped id => .ok (w.notifyListeners id ListenEvent.isStopped)
  | .killed id => (w.handleKilled id).shutdownIfNoMoreChildren gone
  | .faulty id => (w.handleFaulty id).shutdownIfNoMoreChildren gone
  | .listen amp event => do
    match ← tryUnwrap amp with
    | some promise => return w.handleListen promise event
    | none => return w
  | .shutdown amp => do
    match ← tryUnwrap amp with
    | some promise => w.handleShutdown gone promise
    | none => return w

end World

/-- A message that is handled, and the futures that are gone by then. -/
structure Action (Id P : Type) where
  msg : SupervisorMsg Id P
  gone : P → Bool

def step (w : World Id P) (a : Action Id P) : Option (World Id P) := (w.handle a.gone a.msg).toOption

/-! ## What is to hold -/

namespace SupervisorMsg

/-- The message tells what the listener waits for. -/
def Answers (msg : SupervisorMsg Id P) (event : ListenEvent Id) : Prop :=
  match event with
  | .started id => ∃ c, msg = .started c ∧ c.id = id
  | .stopped id => msg = .stopped id
  | .destroyed id => msg = .killed id

/-- The component is killed or faulty. -/
def Ends (msg : SupervisorMsg Id P) (id : Id) : Prop := msg = .killed id ∨ msg = .faulty id

/-- The promise that comes with the message. -/
def promise : SupervisorMsg Id P → Option P
  | .listen amp _ => some amp.promise
  | .shutdown amp => some amp.promise
  | _ => none

/-- The message is the only owner of its promise, as the system sends them. -/
def Owned : SupervisorMsg Id P → Prop
  | .listen amp _ => amp.owners = 1 ∧ amp.poisoned = false
  | .shutdown amp => amp.owners = 1 ∧ amp.poisoned = false
  | _ => True

end SupervisorMsg

/-- The components that were started and did not end, after one more message. -/
def aliveStep (alive : Set Id) : SupervisorMsg Id P → Set Id
  | .started c => insert c.id alive
  | .killed id => alive \ {id}
  | .faulty id => alive \ {id}
  | _ => alive

/-- The components that were started and did not end. -/
def alive (actions : List (Action Id P)) : Set Id := actions.foldl (fun s a => aliveStep s a.msg) ∅

/-- A step at which the listener is neither told nor dropped. -/
def Quiet (event : ListenEvent Id) (w : World Id P) (a : Action Id P) : Prop :=
  ¬ a.msg.Answers event ∧ ¬ a.msg.Ends event.id ∧ ∀ w' ∈ step w a, w'.closed = w.closed

/-- A listener is told by the next message that answers it: its promise is
completed when that is handled. -/
def ListenersTold (actions : List (Action Id P)) : Prop :=
  ∀ pre amp event gone mid last, actions = pre ++ ⟨.listen amp event, gone⟩ :: (mid ++ [last]) →
    ∀ w₁, runActions step .new (pre ++ [⟨.listen amp event, gone⟩]) = some w₁ →
    runMeets step (Quiet event) w₁ mid → last.msg.Answers event →
    ∃ w₂ w₃ promises, runActions step w₁ mid = some w₂ ∧ step w₂ last = some w₃ ∧
      w₃.completed = w₂.completed ++ promises ∧ amp.promise ∈ promises

/-- The promise of every shutdown is completed as soon as all components that were
started have ended, and not earlier. -/
def ShutdownsCompleted (actions : List (Action Id P)) (w : World Id P) : Prop :=
  ∀ pre amp gone post, actions = pre ++ ⟨.shutdown amp, gone⟩ :: post →
    (amp.promise ∈ w.closed ↔ ∃ post₁, post₁ <+: post ∧ alive (pre ++ ⟨.shutdown amp, gone⟩ :: post₁) = ∅)

/-- After a shutdown was requested, all children have been sent `Kill`. -/
def ChildrenKilled (actions : List (Action Id P)) (w : World Id P) : Prop :=
  (∃ amp gone, ⟨.shutdown amp, gone⟩ ∈ actions) → ∀ id ∈ w.sup.children, id ∈ w.kills

/-- A step that goes well: nothing starts after a shutdown is complete, a listener
for the end of a component is told of it because the component was started, there
is no second shutdown, and the future of a shutdown is not dropped. -/
def Sound (w : World Id P) (a : Action Id P) : Prop :=
  match a.msg with
  | .started _ => w.sup.shutdown.isSome ∨ w.closed = []
  | .stopped _ => True
  | .killed id =>
    (id ∈ w.sup.children ∨ ∀ entry ∈ w.sup.listeners.lookupD id [], entry.1 ≠ .destroyed id) ∧
      ∀ promise ∈ w.sup.shutdown, a.gone promise = false
  | .faulty _ => ∀ promise ∈ w.sup.shutdown, a.gone promise = false
  | .listen _ _ => True
  | .shutdown amp => w.sup.shutdown = none ∧ a.gone amp.promise = false

instance (w : World Id P) : (a : Action Id P) → Decidable (Sound w a)
  | ⟨.started _, _⟩ =>
    have : Decidable (w.closed = []) := decidable_of_iff _ List.isEmpty_iff
    inferInstanceAs (Decidable (w.sup.shutdown.isSome ∨ w.closed = []))
  | ⟨.stopped _, _⟩ => inferInstanceAs (Decidable True)
  | ⟨.killed id, gone⟩ =>
    inferInstanceAs (Decidable
      ((id ∈ w.sup.children ∨ ∀ entry ∈ w.sup.listeners.lookupD id [], entry.1 ≠ .destroyed id) ∧
        ∀ promise ∈ w.sup.shutdown, gone promise = false))
  | ⟨.faulty _, gone⟩ => inferInstanceAs (Decidable (∀ promise ∈ w.sup.shutdown, gone promise = false))
  | ⟨.listen _ _, _⟩ => inferInstanceAs (Decidable True)
  | ⟨.shutdown amp, gone⟩ => inferInstanceAs (Decidable (w.sup.shutdown = none ∧ gone amp.promise = false))

/-! ## What a step does -/

namespace World

/-- The promise of a shutdown was completed. -/
def close (w : World Id P) (promise : P) : World Id P :=
  { w with
    sup := { w.sup with shutdown := none, listeners := ∅ }
    completed := w.completed ++ [promise]
    closed := w.closed ++ [promise] }

/-- A shutdown was requested while there are children. -/
def startShutdown (w : World Id P) (promise : P) : World Id P :=
  { w with
    sup := { w.sup with shutdown := some promise }
    kills := w.kills ++ w.sup.children.entries.map fun entry => entry.2.id }

/-- There is no shutdown, or it still waits for a child. -/
def Waits (w : World Id P) : Prop := w.sup.shutdown = none ∨ w.sup.children.keys ≠ []

end World

/-- Handling one message: the world after it. The last child that ends completes a
shutdown. -/
inductive StepTo (w : World Id P) : SupervisorMsg Id P → World Id P → Prop
  | started (c : Container Id) : StepTo w (.started c) (w.handleStarted c)
  | stopped (id : Id) : StepTo w (.stopped id) (w.notifyListeners id ListenEvent.isStopped)
  | killed (id : Id) (h : (w.handleKilled id).Waits) : StepTo w (.killed id) (w.handleKilled id)
  | lastKilled (id : Id) {promise : P} (hs : (w.handleKilled id).sup.shutdown = some promise)
    (hk : (w.handleKilled id).sup.children.keys = []) : StepTo w (.killed id) ((w.handleKilled id).close promise)
  | faulty (id : Id) (h : (w.handleFaulty id).Waits) : StepTo w (.faulty id) (w.handleFaulty id)
  | lastFaulty (id : Id) {promise : P} (hs : (w.handleFaulty id).sup.shutdown = some promise)
    (hk : (w.handleFaulty id).sup.children.keys = []) : StepTo w (.faulty id) ((w.handleFaulty id).close promise)
  | listen (amp : SharedPromise P) (event : ListenEvent Id) :
    StepTo w (.listen amp event) (w.handleListen amp.promise event)
  | idle (amp : SharedPromise P) (hk : w.sup.children.keys = []) : StepTo w (.shutdown amp) (w.close amp.promise)
  | shutdown (amp : SharedPromise P) (hk : w.sup.children.keys ≠ []) :
    StepTo w (.shutdown amp) (w.startShutdown amp.promise)

variable {w w' : World Id P} {a : Action Id P}

@[simp] theorem children_notifyListeners (w : World Id P) (id : Id) (f : ListenEvent Id → Bool) :
    (w.notifyListeners id f).sup.children = w.sup.children := by
  unfold World.notifyListeners; split <;> rfl

@[simp] theorem shutdown_notifyListeners (w : World Id P) (id : Id) (f : ListenEvent Id → Bool) :
    (w.notifyListeners id f).sup.shutdown = w.sup.shutdown := by
  unfold World.notifyListeners; split <;> rfl

@[simp] theorem closed_notifyListeners (w : World Id P) (id : Id) (f : ListenEvent Id → Bool) :
    (w.notifyListeners id f).closed = w.closed := by
  unfold World.notifyListeners; split <;> rfl

@[simp] theorem kills_notifyListeners (w : World Id P) (id : Id) (f : ListenEvent Id → Bool) :
    (w.notifyListeners id f).kills = w.kills := by
  unfold World.notifyListeners; split <;> rfl

theorem completed_notifyListeners (w : World Id P) (id : Id) (f : ListenEvent Id → Bool) :
    (w.notifyListeners id f).completed =
      w.completed ++ ((w.sup.listeners.lookupD id []).filter fun entry => f entry.1).map Prod.snd := by
  unfold World.notifyListeners AssocMap.lookupD
  split
  · rename_i h
    rw [h]
    rfl
  · rename_i h
    rw [h]
    exact (List.append_nil _).symm

/-- The listeners that were not told stay. -/
theorem listeners_notifyListeners (w : World Id P) (id j : Id) (f : ListenEvent Id → Bool) :
    (w.notifyListeners id f).sup.listeners.lookupD j [] =
      if j = id then (w.sup.listeners.lookupD id []).filter fun entry => !f entry.1
      else w.sup.listeners.lookupD j [] := by
  unfold World.notifyListeners
  split
  · rename_i l h
    have hl : w.sup.listeners.lookupD id [] = l := by
      rw [AssocMap.lookupD, h]
      rfl
    rw [AssocMap.lookupD_insert, hl]
  · rename_i h
    split
    · rename_i hj
      rw [hj, AssocMap.lookupD, h]
      rfl
    · rfl

@[simp] theorem shutdown_handleStarted (w : World Id P) (c : Container Id) :
    (w.handleStarted c).sup.shutdown = w.sup.shutdown := by
  unfold World.handleStarted
  simp only
  split <;> exact shutdown_notifyListeners ..

@[simp] theorem closed_handleStarted (w : World Id P) (c : Container Id) :
    (w.handleStarted c).closed = w.closed := by
  unfold World.handleStarted
  simp only
  split <;> exact closed_notifyListeners ..

@[simp] theorem children_handleStarted (w : World Id P) (c : Container Id) :
    (w.handleStarted c).sup.children = w.sup.children.insert c.id c := by
  unfold World.handleStarted
  simp only
  split <;> exact children_notifyListeners ..

@[simp] theorem shutdown_handleKilled (w : World Id P) (id : Id) :
    (w.handleKilled id).sup.shutdown = w.sup.shutdown := by
  unfold World.handleKilled
  split
  · exact shutdown_notifyListeners ..
  · rfl

@[simp] theorem closed_handleKilled (w : World Id P) (id : Id) : (w.handleKilled id).closed = w.closed := by
  unfold World.handleKilled
  split
  · exact closed_notifyListeners ..
  · rfl

@[simp] theorem kills_handleKilled (w : World Id P) (id : Id) : (w.handleKilled id).kills = w.kills := by
  unfold World.handleKilled
  split
  · exact kills_notifyListeners ..
  · rfl

theorem lookup_handleKilled (w : World Id P) (id j : Id) :
    (w.handleKilled id).sup.children.lookup j = if j = id then none else w.sup.children.lookup j := by
  unfold World.handleKilled
  split
  · show (World.notifyListeners _ _ _).sup.children.lookup j = _
    rw [children_notifyListeners]
    exact AssocMap.lookup_erase ..
  · rename_i h
    split
    · rename_i hj
      rw [hj, h]
    · rfl

@[simp] theorem shutdown_handleFaulty (w : World Id P) (id : Id) :
    (w.handleFaulty id).sup.shutdown = w.sup.shutdown := by
  unfold World.handleFaulty
  simp only
  split <;> rfl

@[simp] theorem closed_handleFaulty (w : World Id P) (id : Id) : (w.handleFaulty id).closed = w.closed := by
  unfold World.handleFaulty
  simp only
  split <;> rfl

@[simp] theorem kills_handleFaulty (w : World Id P) (id : Id) : (w.handleFaulty id).kills = w.kills := by
  unfold World.handleFaulty
  simp only
  split <;> rfl

theorem lookup_handleFaulty (w : World Id P) (id j : Id) :
    (w.handleFaulty id).sup.children.lookup j = if j = id then none else w.sup.children.lookup j := by
  have h : (w.handleFaulty id).sup.children = w.sup.children.erase id := by
    unfold World.handleFaulty
    simp only
    split <;> rfl
  rw [h]
  exact AssocMap.lookup_erase ..

omit [DecidableEq Id] in
theorem shutdownIfNoMoreChildren_cases {gone : P → Bool} (w : World Id P)
    (hg : ∀ promise ∈ w.sup.shutdown, gone promise = false) :
    (w.Waits ∧ w.shutdownIfNoMoreChildren gone = .ok w) ∨
      ∃ promise, w.sup.shutdown = some promise ∧ w.sup.children.keys = [] ∧
        w.shutdownIfNoMoreChildren gone = .ok (w.close promise) := by
  unfold World.shutdownIfNoMoreChildren World.Waits
  cases hs : w.sup.shutdown with
  | none => exact .inl ⟨.inl rfl, rfl⟩
  | some promise =>
    by_cases hk : w.sup.children.keys = []
    · refine .inr ⟨promise, rfl, hk, ?_⟩
      simp only [if_pos hk, World.completeShutdown, hg promise hs, Bool.false_eq_true, if_false]
      rfl
    · exact .inl ⟨.inr hk, by simp only [if_neg hk]⟩

theorem tryUnwrap_owned {amp : SharedPromise P} (h : amp.owners = 1 ∧ amp.poisoned = false) :
    World.tryUnwrap amp = .ok (some amp.promise) := by
  simp [World.tryUnwrap, h.1, h.2]

/-- A sound step is one of these, and does not panic. -/
theorem step_cases (hs : Sound w a) (ho : a.msg.Owned) : ∃ w', step w a = some w' ∧ StepTo w a.msg w' := by
  obtain ⟨msg, gone⟩ := a
  unfold step
  cases msg with
  | started c => exact ⟨_, rfl, .started c⟩
  | stopped id => exact ⟨_, rfl, .stopped id⟩
  | killed id =>
    have hg : ∀ promise ∈ (w.handleKilled id).sup.shutdown, gone promise = false := by
      rw [shutdown_handleKilled]
      exact hs.2
    rcases shutdownIfNoMoreChildren_cases _ hg with ⟨hw, hrun⟩ | ⟨promise, hp, hk, hrun⟩
    · exact ⟨_, by simp only [World.handle, hrun]; rfl, .killed id hw⟩
    · exact ⟨_, by simp only [World.handle, hrun]; rfl, .lastKilled id hp hk⟩
  | faulty id =>
    have hg : ∀ promise ∈ (w.handleFaulty id).sup.shutdown, gone promise = false := by
      rw [shutdown_handleFaulty]
      exact hs
    rcases shutdownIfNoMoreChildren_cases _ hg with ⟨hw, hrun⟩ | ⟨promise, hp, hk, hrun⟩
    · exact ⟨_, by simp only [World.handle, hrun]; rfl, .faulty id hw⟩
    · exact ⟨_, by simp only [World.handle, hrun]; rfl, .lastFaulty id hp hk⟩
  | listen amp event =>
    refine ⟨_, ?_, .listen amp event⟩
    simp only [World.handle, tryUnwrap_owned ho, bind, Except.bind]
    rfl
  | shutdown amp =>
    obtain ⟨hnone, hg⟩ := hs
    have hg : gone amp.promise = false := hg
    simp only [World.handle, tryUnwrap_owned ho, bind, Except.bind, World.handleShutdown]
    by_cases hk : w.sup.children.keys = []
    · refine ⟨w.close amp.promise, ?_, .idle amp hk⟩
      simp only [if_pos hk, World.completeShutdown, hg, Bool.false_eq_true, if_false, World.close, ← hnone]
      rfl
    · refine ⟨_, ?_, .shutdown amp hk⟩
      rw [if_neg hk]
      rfl

/-! ## The invariant -/

/-- A shutdown that is not complete waits for children, and they have been sent
`Kill`; after one that is complete there are none. -/
structure Good (w : World Id P) : Prop where
  ids : ∀ id c, w.sup.children.lookup id = some c → c.id = id
  busy : w.sup.shutdown.isSome → w.sup.children.keys ≠ []
  killed : w.sup.shutdown.isSome → ∀ id ∈ w.sup.children, id ∈ w.kills
  done : w.sup.shutdown = none → w.closed ≠ [] → w.sup.children.keys = []

theorem good_new : Good (World.new : World Id P) :=
  ⟨(fun id c h => by cases h), (fun h => by cases h), (fun h => by cases h), fun _ h => absurd rfl h⟩

/-- A child ends. -/
theorem Good.ended (h : Good w) {id : Id}
    (hc : ∀ j, w'.sup.children.lookup j = if j = id then none else w.sup.children.lookup j)
    (hs : w'.sup.shutdown = w.sup.shutdown) (hk : w'.kills = w.kills) (hcl : w'.closed = w.closed) :
    (w'.Waits → Good w') ∧ (∀ promise, w'.sup.children.keys = [] → Good (w'.close promise)) := by
  have hmem : ∀ j ∈ w'.sup.children, j ∈ w.sup.children := by
    intro j hj
    rw [← AList.lookup_isSome, hc] at hj
    rw [← AList.lookup_isSome]
    split at hj
    · cases hj
    · exact hj
  have hids : ∀ j c, w'.sup.children.lookup j = some c → c.id = j := by
    intro j c hj
    rw [hc] at hj
    split at hj
    · cases hj
    · exact h.ids j c hj
  refine ⟨fun hw => ⟨hids, fun hsome => ?_, fun hsome j hj => ?_, fun hnone hne => ?_⟩, fun promise hkeys =>
    ⟨hids, (fun hsome => by cases hsome), (fun hsome => by cases hsome), fun _ _ => hkeys⟩⟩
  · rcases hw with hnone | hkeys
    · rw [hnone] at hsome
      cases hsome
    · exact hkeys
  · rw [hk]
    rw [hs] at hsome
    exact h.killed hsome j (hmem j hj)
  · rw [hs] at hnone
    rw [hcl] at hne
    have hempty := AssocMap.keys_eq_nil_iff.mp (h.done hnone hne)
    exact AssocMap.keys_eq_nil_iff.mpr fun j hj => hempty j (hmem j hj)

theorem Good.step (h : Good w) (hs : Sound w a) (hst : StepTo w a.msg w') : Good w' := by
  obtain ⟨msg, gone⟩ := a
  cases hst with
  | started c =>
    refine ⟨fun id c' hl => ?_, fun _ => ?_, fun hsome id hid => ?_, fun hnone hne => ?_⟩
    · rw [children_handleStarted, AssocMap.lookup_insert] at hl
      split at hl
      · rename_i he
        rw [← Option.some.inj hl, he]
      · exact h.ids id c' hl
    · rw [children_handleStarted]
      exact fun hnil => AssocMap.keys_eq_nil_iff.mp hnil c.id ((AList.mem_insert _).mpr (.inl rfl))
    · rw [shutdown_handleStarted] at hsome
      have hkills : (w.handleStarted c).kills = w.kills ++ [c.id] := by
        unfold World.handleStarted
        simp only [shutdown_notifyListeners, hsome, if_true, kills_notifyListeners]
      rw [children_handleStarted, AList.mem_insert] at hid
      rw [hkills, List.mem_append, List.mem_singleton]
      rcases hid with rfl | hid
      · exact .inr rfl
      · exact .inl (h.killed hsome id hid)
    · rw [shutdown_handleStarted] at hnone
      rw [closed_handleStarted] at hne
      rcases hs with hsome | hnil
      · rw [hnone] at hsome
        cases hsome
      · exact absurd hnil hne
  | stopped id =>
    refine ⟨?_, ?_, ?_, ?_⟩
    · rw [children_notifyListeners]
      exact h.ids
    · rw [children_notifyListeners, shutdown_notifyListeners]
      exact h.busy
    · rw [children_notifyListeners, shutdown_notifyListeners, kills_notifyListeners]
      exact h.killed
    · rw [children_notifyListeners, shutdown_notifyListeners, closed_notifyListeners]
      exact h.done
  | killed id hw =>
    exact (h.ended (lookup_handleKilled w id) (shutdown_handleKilled ..) (kills_handleKilled ..)
      (closed_handleKilled ..)).1 hw
  | lastKilled id hp hk =>
    exact (h.ended (lookup_handleKilled w id) (shutdown_handleKilled ..) (kills_handleKilled ..)
      (closed_handleKilled ..)).2 _ hk
  | faulty id hw =>
    exact (h.ended (lookup_handleFaulty w id) (shutdown_handleFaulty ..) (kills_handleFaulty ..)
      (closed_handleFaulty ..)).1 hw
  | lastFaulty id hp hk =>
    exact (h.ended (lookup_handleFaulty w id) (shutdown_handleFaulty ..) (kills_handleFaulty ..)
      (closed_handleFaulty ..)).2 _ hk
  | listen amp event => exact ⟨h.ids, h.busy, h.killed, h.done⟩
  | idle amp hk => exact ⟨h.ids, (fun hsome => by cases hsome), (fun hsome => by cases hsome), fun _ _ => hk⟩
  | shutdown amp hk =>
    refine ⟨h.ids, fun _ => hk, fun _ id hid => List.mem_append_right _ ?_, (fun hnone => by cases hnone)⟩
    obtain ⟨c, hc⟩ := Option.isSome_iff_exists.mp (AList.lookup_isSome.mpr hid)
    refine List.mem_map.mpr ⟨⟨id, c⟩, AList.mem_lookup_iff.mp hc, h.ids id c hc⟩

/-- The children are the components that were started and did not end. -/
theorem mem_children_step (hst : StepTo w a.msg w') (id : Id) :
    id ∈ w'.sup.children ↔ id ∈ aliveStep {j | j ∈ w.sup.children} a.msg := by
  have hended : ∀ {v : World Id P} {j : Id},
      (∀ k, v.sup.children.lookup k = if k = j then none else w.sup.children.lookup k) →
      (id ∈ v.sup.children ↔ id ∈ {k | k ∈ w.sup.children} \ {j}) := by
    intro v j hc
    rw [← AList.lookup_isSome, hc, Set.mem_sdiff, Set.mem_singleton_iff, Set.mem_ofPred_eq, ← AList.lookup_isSome]
    split
    · rename_i he
      simp [he]
    · rename_i he
      simp [he]
  obtain ⟨msg, gone⟩ := a
  cases hst with
  | started c =>
    rw [children_handleStarted, AList.mem_insert]
    rfl
  | stopped id => rw [children_notifyListeners]; rfl
  | killed j hw => exact hended (lookup_handleKilled w j)
  | lastKilled j hp hk => exact hended (v := (w.handleKilled j).close _) (lookup_handleKilled w j)
  | faulty j hw => exact hended (lookup_handleFaulty w j)
  | lastFaulty j hp hk => exact hended (v := (w.handleFaulty j).close _) (lookup_handleFaulty w j)
  | listen amp event => rfl
  | idle amp hk => rfl
  | shutdown amp hk => rfl

/-! ## Runs -/

variable {actions : List (Action Id P)}

/-- The first step of a sound run, and what follows. -/
theorem run_cons (ho : ∀ b ∈ a :: actions, b.msg.Owned) (hs : runMeets step Sound w (a :: actions)) :
    ∃ w₁, step w a = some w₁ ∧ StepTo w a.msg w₁ ∧ (∀ b ∈ actions, b.msg.Owned) ∧ runMeets step Sound w₁ actions ∧
      ∀ as, runActions step w (a :: as) = runActions step w₁ as := by
  obtain ⟨w₁, hstep, hst⟩ := step_cases hs.1 (ho a (List.mem_cons_self ..))
  refine ⟨w₁, hstep, hst, fun b hb => ho b (List.mem_cons_of_mem _ hb), hs.2 w₁ hstep, fun as => ?_⟩
  simp only [runActions, hstep, Option.bind_some]

/-- A run of sound steps does not panic and keeps the invariant, by induction on the
steps. -/
theorem run_good (h : Good w) (ho : ∀ a ∈ actions, a.msg.Owned) (hs : runMeets step Sound w actions) :
    ∃ w', runActions step w actions = some w' ∧ Good w' ∧
      ∀ id, id ∈ w'.sup.children ↔ id ∈ actions.foldl (fun s a => aliveStep s a.msg) {j | j ∈ w.sup.children} := by
  induction actions generalizing w with
  | nil => exact ⟨w, rfl, h, fun _ => Iff.rfl⟩
  | cons a actions ih =>
    obtain ⟨w₁, -, hst, ho₁, hs₁, hcons⟩ := run_cons ho hs
    obtain ⟨w', hrun, hgood, hmem⟩ := ih (h.step hs.1 hst) ho₁ hs₁
    refine ⟨w', (hcons actions).trans hrun, hgood, fun id => ?_⟩
    rw [hmem id, List.foldl_cons, show {j | j ∈ w₁.sup.children} = aliveStep {j | j ∈ w.sup.children} a.msg from
      Set.ext fun j => mem_children_step hst j]

/-- The children after a run from the start. -/
theorem keys_eq_nil_iff_alive (ho : ∀ a ∈ actions, a.msg.Owned) (hs : runMeets step Sound .new actions)
    (hrun : runActions step .new actions = some w) : w.sup.children.keys = [] ↔ alive actions = ∅ := by
  obtain ⟨w', hrun', -, hmem⟩ := run_good good_new ho hs
  obtain rfl := Option.some.inj (hrun.symm.trans hrun')
  have hnew : {j : Id | j ∈ (World.new : World Id P).sup.children} = ∅ :=
    Set.eq_empty_iff_forall_notMem.mpr fun j hj => by cases hj
  rw [hnew] at hmem
  rw [AssocMap.keys_eq_nil_iff, Set.eq_empty_iff_forall_notMem]
  exact forall_congr' fun id => not_congr (hmem id)

/-! ### Shutdowns -/

/-- The promise of a shutdown. -/
def SupervisorMsg.requests : SupervisorMsg Id P → Option P
  | .shutdown amp => some amp.promise
  | _ => none

theorem Sound.requests {p : P} (hs : Sound w a) (hp : w.sup.shutdown = some p) : a.msg.requests = none := by
  obtain ⟨msg, gone⟩ := a
  cases msg with
  | shutdown amp => exact absurd (hs.1.symm.trans hp) (by simp)
  | _ => rfl

/-- The promises that a step completes for a shutdown, and the one it leaves. -/
theorem closed_step (hst : StepTo w a.msg w') :
    (w'.closed = w.closed ∧
        (w'.sup.shutdown = w.sup.shutdown ∨ ∃ p, a.msg.requests = some p ∧ w'.sup.shutdown = some p)) ∨
      ∃ p, w'.closed = w.closed ++ [p] ∧ w'.sup.shutdown = none ∧ w'.sup.children.keys = [] ∧
        (w.sup.shutdown = some p ∨ a.msg.requests = some p) := by
  obtain ⟨msg, gone⟩ := a
  cases hst with
  | started c => exact .inl ⟨closed_handleStarted .., .inl (shutdown_handleStarted ..)⟩
  | stopped id => exact .inl ⟨closed_notifyListeners .., .inl (shutdown_notifyListeners ..)⟩
  | killed id hw => exact .inl ⟨closed_handleKilled .., .inl (shutdown_handleKilled ..)⟩
  | lastKilled id hp hk =>
    rw [shutdown_handleKilled] at hp
    exact .inr ⟨_, congrArg (· ++ _) (closed_handleKilled w id), rfl, hk, .inl hp⟩
  | faulty id hw => exact .inl ⟨closed_handleFaulty .., .inl (shutdown_handleFaulty ..)⟩
  | lastFaulty id hp hk =>
    rw [shutdown_handleFaulty] at hp
    exact .inr ⟨_, congrArg (· ++ _) (closed_handleFaulty w id), rfl, hk, .inl hp⟩
  | listen amp event => exact .inl ⟨rfl, .inl rfl⟩
  | idle amp hk => exact .inr ⟨_, rfl, rfl, hk, .inr rfl⟩
  | shutdown amp hk => exact .inl ⟨rfl, .inr ⟨_, rfl, rfl⟩⟩

/-- Promises that were completed for a shutdown, and the one of the current
shutdown, came with the messages. -/
theorem closed_run (ho : ∀ a ∈ actions, a.msg.Owned) (hs : runMeets step Sound w actions)
    (hrun : runActions step w actions = some w') :
    w.closed <+: w'.closed ∧
      (∀ p ∈ w'.closed, p ∈ w.closed ∨ p ∈ w.sup.shutdown ∨ p ∈ actions.filterMap fun a => a.msg.requests) ∧
      ∀ p ∈ w'.sup.shutdown, p ∈ w.sup.shutdown ∨ p ∈ actions.filterMap fun a => a.msg.requests := by
  induction actions generalizing w with
  | nil =>
    obtain rfl := Option.some.inj hrun
    exact ⟨List.prefix_refl _, fun p hp => .inl hp, fun p hp => .inl hp⟩
  | cons a actions ih =>
    obtain ⟨w₁, -, hst, ho₁, hs₁, hcons⟩ := run_cons ho hs
    rw [hcons] at hrun
    obtain ⟨hpre, hcl, hsh⟩ := ih ho₁ hs₁ hrun
    have hmine : ∀ p, a.msg.requests = some p → p ∈ (a :: actions).filterMap fun a => a.msg.requests :=
      fun p hp => List.mem_filterMap.mpr ⟨a, List.mem_cons_self .., hp⟩
    have hlater : ∀ p ∈ actions.filterMap (fun a => a.msg.requests),
        p ∈ (a :: actions).filterMap fun a => a.msg.requests := by
      intro p hp
      obtain ⟨b, hb, hbp⟩ := List.mem_filterMap.mp hp
      exact List.mem_filterMap.mpr ⟨b, List.mem_cons_of_mem _ hb, hbp⟩
    have hshut : ∀ p ∈ w₁.sup.shutdown, p ∈ w.sup.shutdown ∨ p ∈ (a :: actions).filterMap fun a => a.msg.requests := by
      intro p hp
      rcases closed_step hst with ⟨-, heq | ⟨q, hq, hsome⟩⟩ | ⟨q, -, hnone, -, -⟩
      · exact .inl (heq ▸ hp)
      · obtain rfl := Option.some.inj (hsome.symm.trans hp)
        exact .inr (hmine q hq)
      · rw [hnone] at hp
        cases hp
    have hclosed : ∀ p ∈ w₁.closed, p ∈ w.closed ∨ p ∈ w.sup.shutdown ∨
        p ∈ (a :: actions).filterMap fun a => a.msg.requests := by
      intro p hp
      rcases closed_step hst with ⟨heq, -⟩ | ⟨q, heq, -, -, hq⟩
      · exact .inl (heq ▸ hp)
      · rw [heq] at hp
        rcases List.mem_append.mp hp with hp | hp
        · exact .inl hp
        · obtain rfl := List.mem_singleton.mp hp
          rcases hq with hq | hq
          · exact .inr (.inl hq)
          · exact .inr (.inr (hmine p hq))
    refine ⟨?_, fun p hp => ?_, fun p hp => ?_⟩
    · refine List.IsPrefix.trans ?_ hpre
      rcases closed_step hst with ⟨heq, -⟩ | ⟨q, heq, -⟩
      · exact ⟨[], by rw [List.append_nil, heq]⟩
      · rw [heq]
        exact List.prefix_append ..
    · rcases hcl p hp with hp | hp | hp
      · exact hclosed p hp
      · exact .inr (hshut p hp)
      · exact .inr (.inr (hlater p hp))
    · rcases hsh p hp with hp | hp
      · exact hshut p hp
      · exact .inr (hlater p hp)

/-- While a shutdown is not complete, its promise is completed as soon as there is no
child any more. -/
theorem closed_iff_of_pending {p : P} (h : Good w) (ho : ∀ a ∈ actions, a.msg.Owned)
    (hs : runMeets step Sound w actions) (hp : w.sup.shutdown = some p) (hnot : p ∉ w.closed)
    (hrun : runActions step w actions = some w') :
    p ∈ w'.closed ↔ ∃ as, as <+: actions ∧ ∃ w₁, runActions step w as = some w₁ ∧ w₁.sup.children.keys = [] := by
  induction actions generalizing w with
  | nil =>
    obtain rfl := Option.some.inj hrun
    refine iff_of_false hnot ?_
    rintro ⟨as, has, w₁, hrun₁, hk⟩
    rw [List.prefix_nil] at has
    subst has
    obtain rfl := Option.some.inj hrun₁
    exact h.busy (by rw [hp]; rfl) hk
  | cons a actions ih =>
    obtain ⟨w₁, -, hst, ho₁, hs₁, hcons⟩ := run_cons ho hs
    rw [hcons] at hrun
    have hcut : (∃ as, as <+: a :: actions ∧ ∃ v, runActions step w as = some v ∧ v.sup.children.keys = []) ↔
        ∃ as, as <+: actions ∧ ∃ v, runActions step w₁ as = some v ∧ v.sup.children.keys = [] := by
      constructor
      · rintro ⟨as, has, v, hv, hk⟩
        rcases List.prefix_cons_iff.mp has with rfl | ⟨bs, rfl, hbs⟩
        · obtain rfl := Option.some.inj hv
          exact absurd hk (h.busy (by rw [hp]; rfl))
        · exact ⟨bs, hbs, v, (hcons bs).symm.trans hv, hk⟩
      · rintro ⟨as, has, v, hv, hk⟩
        exact ⟨a :: as, List.cons_prefix_cons.mpr ⟨rfl, has⟩, v, (hcons as).trans hv, hk⟩
    rw [hcut]
    rcases closed_step hst with ⟨hcl, hsh⟩ | ⟨q, hcl, -, hk, hq⟩
    · -- a second shutdown would not be sound
      have hsh : w₁.sup.shutdown = some p := by
        rcases hsh with hsh | ⟨q, hq, hsome⟩
        · rw [hsh, hp]
        · exact absurd (hq.symm.trans (hs.1.requests hp)) (by simp)
      exact ih (h.step hs.1 hst) ho₁ hs₁ hsh (by rw [hcl]; exact hnot) hrun
    · have hqp : q = p := by
        rcases hq with hq | hq
        · exact Option.some.inj (hq.symm.trans hp)
        · exact absurd (hq.symm.trans (hs.1.requests hp)) (by simp)
      refine iff_of_true ?_ ⟨[], List.nil_prefix, w₁, rfl, hk⟩
      refine (closed_run ho₁ hs₁ hrun).1.subset ?_
      rw [hcl, hqp]
      exact List.mem_append_right _ (List.mem_singleton_self _)

theorem shutdowns_completed (ho : ∀ a ∈ actions, a.msg.Owned)
    (hp : (actions.filterMap fun a => a.msg.promise).Nodup) (hs : runMeets step Sound .new actions)
    (hrun : runActions step .new actions = some w) : ShutdownsCompleted actions w := by
  rintro pre amp gone post rfl
  have hopre : ∀ a ∈ pre, a.msg.Owned := fun a ha => ho a (List.mem_append_left _ ha)
  have hopost : ∀ a ∈ post, a.msg.Owned := fun a ha => ho a (List.mem_append_right _ (List.mem_cons_of_mem _ ha))
  obtain ⟨hspre, hsrest⟩ := runMeets_append.mp hs
  obtain ⟨w₀, hrun₀, hgood₀, -⟩ := run_good good_new hopre hspre
  obtain ⟨hsx, hspost⟩ := hsrest w₀ hrun₀
  obtain ⟨w₁, hstep, hst⟩ := step_cases hsx (ho _ (List.mem_append_right _ (List.mem_cons_self ..)))
  have hspost := hspost w₁ hstep
  rw [runActions_append, hrun₀] at hrun
  simp only [Option.bind_some, runActions, hstep] at hrun
  -- the children after each part of what follows
  have halive : ∀ as, as <+: post → ∀ v, runActions step w₁ as = some v →
      (v.sup.children.keys = [] ↔ alive (pre ++ ⟨.shutdown amp, gone⟩ :: as) = ∅) := by
    intro as has v hv
    have hpre : pre ++ ⟨.shutdown amp, gone⟩ :: as <+: pre ++ ⟨.shutdown amp, gone⟩ :: post :=
      List.prefix_append_right_inj pre |>.mpr (List.cons_prefix_cons.mpr ⟨rfl, has⟩)
    refine keys_eq_nil_iff_alive (fun a ha => ho a (hpre.subset ha)) (hs.of_prefix hpre) ?_
    rw [runActions_append, hrun₀]
    simp only [Option.bind_some, runActions, hstep, hv]
  -- the promise was not completed before it came
  have hnot : amp.promise ∉ w₀.closed := by
    intro hm
    rcases (closed_run hopre hspre hrun₀).2.1 _ hm with hm | hm | hm
    · cases hm
    · cases hm
    · obtain ⟨b, hb, hbp⟩ := List.mem_filterMap.mp hm
      have hbp : b.msg.promise = some amp.promise := by
        obtain ⟨msg, gone'⟩ := b
        cases msg with
        | shutdown amp' => exact hbp
        | _ => cases hbp
      rw [List.filterMap_append, List.nodup_append] at hp
      exact hp.2.2 _ (List.mem_filterMap.mpr ⟨b, hb, hbp⟩) _
        (List.mem_filterMap.mpr ⟨_, List.mem_cons_self .., rfl⟩) rfl
  cases hst with
  | idle _ hk =>
    refine iff_of_true ?_ ⟨[], List.nil_prefix, (halive [] List.nil_prefix _ rfl).mp hk⟩
    refine (closed_run hopost hspost hrun).1.subset ?_
    exact List.mem_append_right _ (List.mem_singleton_self _)
  | shutdown _ hk =>
    rw [closed_iff_of_pending (hgood₀.step hsx (.shutdown amp hk)) hopost hspost rfl hnot hrun]
    constructor
    · rintro ⟨as, has, v, hv, hkeys⟩
      exact ⟨as, has, (halive as has v hv).mp hkeys⟩
    · rintro ⟨as, has, hempty⟩
      obtain ⟨v, hv, -⟩ := run_good (hgood₀.step hsx (.shutdown amp hk)) (fun a ha => hopost a (has.subset ha))
        (hspost.of_prefix has)
      exact ⟨as, has, v, hv, (halive as has v hv).mpr hempty⟩

/-! ### Kills -/

/-- After a shutdown was requested, one is pending or complete. -/
theorem asked_run (ho : ∀ a ∈ actions, a.msg.Owned) (hs : runMeets step Sound w actions)
    (hrun : runActions step w actions = some w')
    (hask : (w.sup.shutdown.isSome ∨ w.closed ≠ []) ∨ ∃ a ∈ actions, ∃ amp, a.msg = .shutdown amp) :
    w'.sup.shutdown.isSome ∨ w'.closed ≠ [] := by
  induction actions generalizing w with
  | nil =>
    obtain rfl := Option.some.inj hrun
    rcases hask with h | ⟨a, ha, -⟩
    · exact h
    · cases ha
  | cons a actions ih =>
    obtain ⟨w₁, -, hst, ho₁, hs₁, hcons⟩ := run_cons ho hs
    rw [hcons] at hrun
    refine ih ho₁ hs₁ hrun ?_
    have hkeep : (w.sup.shutdown.isSome ∨ w.closed ≠ []) → w₁.sup.shutdown.isSome ∨ w₁.closed ≠ [] := by
      intro h
      rcases closed_step hst with ⟨hcl, hsh | ⟨q, -, hsh⟩⟩ | ⟨q, hcl, -⟩
      · rw [hcl, hsh]
        exact h
      · exact .inl (by rw [hsh]; rfl)
      · exact .inr (by rw [hcl]; simp)
    rcases hask with h | ⟨b, hb, amp, hamp⟩
    · exact .inl (hkeep h)
    · rcases List.mem_cons.mp hb with rfl | hb
      · obtain ⟨msg, gone⟩ := b
        obtain rfl : msg = .shutdown amp := hamp
        cases hst with
        | idle _ hk => exact .inl (.inr (by simp [World.close]))
        | shutdown _ hk => exact .inl (.inl rfl)
      · exact .inr ⟨b, hb, amp, hamp⟩

theorem children_killed (ho : ∀ a ∈ actions, a.msg.Owned) (hs : runMeets step Sound .new actions)
    (hrun : runActions step .new actions = some w) : ChildrenKilled actions w := by
  rintro ⟨amp, gone, hmem⟩ id hid
  obtain ⟨w', hrun', hgood, -⟩ := run_good good_new ho hs
  obtain rfl := Option.some.inj (hrun.symm.trans hrun')
  rcases Option.eq_none_or_eq_some w.sup.shutdown with hnone | ⟨p, hsome⟩
  · rcases asked_run ho hs hrun (.inr ⟨_, hmem, amp, rfl⟩) with h | h
    · rw [hnone] at h
      cases h
    · exact absurd hid (AssocMap.keys_eq_nil_iff.mp (hgood.done hnone h) id)
  · exact hgood.killed (by rw [hsome]; rfl) id hid

/-! ### Listeners -/

/-- The listener waits for the event. -/
def Registered (w : World Id P) (event : ListenEvent Id) (promise : P) : Prop :=
  (event, promise) ∈ w.sup.listeners.lookupD event.id []

theorem listeners_handleStarted (w : World Id P) (c : Container Id) (j : Id) :
    (w.handleStarted c).sup.listeners.lookupD j [] =
      if j = c.id then (w.sup.listeners.lookupD c.id []).filter fun entry => !entry.1.isStarted
      else w.sup.listeners.lookupD j [] := by
  unfold World.handleStarted
  simp only
  split <;> exact listeners_notifyListeners ..

theorem completed_handleStarted (w : World Id P) (c : Container Id) :
    (w.handleStarted c).completed =
      w.completed ++ ((w.sup.listeners.lookupD c.id []).filter fun entry => entry.1.isStarted).map Prod.snd := by
  unfold World.handleStarted
  simp only
  split <;> exact completed_notifyListeners ..

theorem listeners_handleKilled (w : World Id P) {id j : Id} (h : j ≠ id) :
    (w.handleKilled id).sup.listeners.lookupD j [] = w.sup.listeners.lookupD j [] := by
  unfold World.handleKilled
  split
  · show AssocMap.lookupD (AList.erase id _) j [] = _
    rw [AssocMap.lookupD_erase, if_neg h, listeners_notifyListeners, if_neg h]
  · rfl

theorem completed_handleKilled {id : Id} (h : id ∈ w.sup.children) :
    (w.handleKilled id).completed =
      w.completed ++ ((w.sup.listeners.lookupD id []).filter fun entry => entry.1.isDestroyed).map Prod.snd := by
  obtain ⟨c, hc⟩ := Option.isSome_iff_exists.mp (AList.lookup_isSome.mpr h)
  unfold World.handleKilled
  rw [hc]
  exact completed_notifyListeners ..

theorem listeners_handleFaulty (w : World Id P) {id j : Id} (h : j ≠ id) :
    (w.handleFaulty id).sup.listeners.lookupD j [] = w.sup.listeners.lookupD j [] := by
  have hl : (w.handleFaulty id).sup.listeners = w.sup.listeners.erase id := by
    unfold World.handleFaulty
    simp only
    split <;> rfl
  rw [hl, AssocMap.lookupD_erase, if_neg h]

/-- A listener that is neither told nor dropped stays. -/
theorem Registered.quiet {event : ListenEvent Id} {promise : P} (h : Registered w event promise)
    (hq : Quiet event w a) (hstep : step w a = some w') (hst : StepTo w a.msg w') : Registered w' event promise := by
  obtain ⟨hans, hends, hclosed⟩ := hq
  have hclosed := hclosed w' hstep
  obtain ⟨msg, gone⟩ := a
  unfold Registered at h ⊢
  cases hst with
  | started c =>
    rw [listeners_handleStarted]
    split
    · rename_i hid
      rw [← hid]
      refine List.mem_filter.mpr ⟨h, ?_⟩
      cases event with
      | started id => exact absurd ⟨c, rfl, hid.symm⟩ hans
      | stopped id => rfl
      | destroyed id => rfl
    · exact h
  | stopped id =>
    rw [listeners_notifyListeners]
    split
    · rename_i hid
      rw [← hid]
      refine List.mem_filter.mpr ⟨h, ?_⟩
      cases event with
      | started id => rfl
      | stopped id' => exact absurd (congrArg SupervisorMsg.stopped hid.symm) hans
      | destroyed id => rfl
    · exact h
  | killed id hw =>
    rw [listeners_handleKilled w fun he => hends (.inl (congrArg SupervisorMsg.killed he.symm))]
    exact h
  | lastKilled id hp hk => exact absurd (congrArg List.length hclosed) (by simp [World.close])
  | faulty id hw =>
    rw [listeners_handleFaulty w fun he => hends (.inr (congrArg SupervisorMsg.faulty he.symm))]
    exact h
  | lastFaulty id hp hk => exact absurd (congrArg List.length hclosed) (by simp [World.close])
  | listen amp event' =>
    show (event, promise) ∈ AssocMap.lookupD (AList.insert _ _ _) event.id []
    rw [AssocMap.lookupD_insert]
    split
    · rename_i hid
      rw [← hid]
      exact List.mem_append_left _ h
    · exact h
  | idle amp hk => exact absurd (congrArg List.length hclosed) (by simp [World.close])
  | shutdown amp hk => exact h

/-- A listener is told by the message that answers it. -/
theorem Registered.told {event : ListenEvent Id} {promise : P} (h : Registered w event promise) (hs : Sound w a)
    (hst : StepTo w a.msg w') (hans : a.msg.Answers event) :
    ∃ promises, w'.completed = w.completed ++ promises ∧ promise ∈ promises := by
  obtain ⟨msg, gone⟩ := a
  unfold Registered at h
  have hmem : ∀ {f : ListenEvent Id → Bool}, f event = true →
      promise ∈ ((w.sup.listeners.lookupD event.id []).filter fun entry => f entry.1).map Prod.snd :=
    fun hf => List.mem_map.mpr ⟨(event, promise), List.mem_filter.mpr ⟨h, hf⟩, rfl⟩
  cases event with
  | started id =>
    obtain ⟨c, rfl, rfl⟩ := hans
    cases hst with
    | started c => exact ⟨_, completed_handleStarted w c, hmem rfl⟩
  | stopped id =>
    obtain rfl : msg = .stopped id := hans
    cases hst with
    | stopped id => exact ⟨_, completed_notifyListeners w id _, hmem rfl⟩
  | destroyed id =>
    obtain rfl : msg = .killed id := hans
    have hchild : id ∈ w.sup.children := hs.1.resolve_right fun hno => hno _ h rfl
    cases hst with
    | killed _ hw => exact ⟨_, completed_handleKilled hchild, hmem rfl⟩
    | @lastKilled _ p hp hk =>
      refine ⟨_ ++ [p], ?_, List.mem_append_left _ (@hmem ListenEvent.isDestroyed rfl)⟩
      rw [← List.append_assoc]
      exact congrArg (· ++ [p]) (completed_handleKilled hchild)

theorem Registered.run {event : ListenEvent Id} {promise : P} (h : Registered w event promise)
    (ho : ∀ a ∈ actions, a.msg.Owned) (hs : runMeets step Sound w actions)
    (hq : runMeets step (Quiet event) w actions) (hrun : runActions step w actions = some w') :
    Registered w' event promise := by
  induction actions generalizing w with
  | nil =>
    obtain rfl := Option.some.inj hrun
    exact h
  | cons a actions ih =>
    obtain ⟨w₁, hstep, hst, ho₁, hs₁, hcons⟩ := run_cons ho hs
    rw [hcons] at hrun
    exact ih (h.quiet hq.1 hstep hst) ho₁ hs₁ (hq.2 w₁ hstep) hrun

theorem listeners_told (ho : ∀ a ∈ actions, a.msg.Owned) (hs : runMeets step Sound .new actions) :
    ListenersTold actions := by
  rintro pre amp event gone mid last rfl w₁ hrun₁ hq hans
  have hsplit : pre ++ ⟨.listen amp event, gone⟩ :: (mid ++ [last]) =
      (pre ++ [⟨.listen amp event, gone⟩]) ++ (mid ++ [last]) := by simp
  rw [hsplit] at ho hs
  obtain ⟨hs₁, hs₂⟩ := runMeets_append.mp hs
  obtain ⟨hmid, hlast⟩ := runMeets_append.mp (hs₂ w₁ hrun₁)
  have ho₁ : ∀ a ∈ pre ++ [⟨.listen amp event, gone⟩], a.msg.Owned := fun a ha => ho a (List.mem_append_left _ ha)
  have ho₂ : ∀ a ∈ mid ++ [last], a.msg.Owned := fun a ha => ho a (List.mem_append_right _ ha)
  obtain ⟨w₁', hrun₁', hgood₁, -⟩ := run_good good_new ho₁ hs₁
  obtain rfl := Option.some.inj (hrun₁.symm.trans hrun₁')
  -- the listener is registered
  have hreg : Registered w₁ event amp.promise := by
    obtain ⟨hspre, hslisten⟩ := runMeets_append.mp hs₁
    obtain ⟨w₀, hrun₀, -⟩ := run_good good_new (fun a ha => ho₁ a (List.mem_append_left _ ha)) hspre
    rw [runActions_append, hrun₀] at hrun₁
    obtain ⟨v, hv, hst⟩ := step_cases (hslisten w₀ hrun₀).1
      (ho₁ _ (List.mem_append_right _ (List.mem_singleton_self _)))
    simp only [Option.bind_some, runActions, hv, Option.some.injEq] at hrun₁
    subst hrun₁
    cases hst with
    | listen _ _ =>
      show (event, amp.promise) ∈ AssocMap.lookupD (AList.insert _ _ _) event.id []
      rw [AssocMap.lookupD_insert, if_pos rfl]
      exact List.mem_append_right _ (List.mem_singleton_self _)
  obtain ⟨w₂, hrun₂, -⟩ := run_good hgood₁ (fun a ha => ho₂ a (List.mem_append_left _ ha)) hmid
  have hreg₂ := hreg.run (fun a ha => ho₂ a (List.mem_append_left _ ha)) hmid hq hrun₂
  have hslast := (hlast w₂ hrun₂).1
  obtain ⟨w₃, hstep, hst⟩ := step_cases hslast (ho₂ last (List.mem_append_right _ (List.mem_singleton_self _)))
  obtain ⟨promises, hcomp, hmem⟩ := hreg₂.told hslast hst hans
  exact ⟨w₂, w₃, promises, hrun₂, hstep, hcomp, hmem⟩

/-- What holds in every run of sound steps, whatever the order of the messages: it
does not panic, listeners are told, shutdowns are completed when all components
have ended and not before, and after a shutdown was requested all children have
been sent `Kill`. Each message owns its promise, and no promise comes twice. -/
theorem supervisor_run (ho : ∀ a ∈ actions, a.msg.Owned) (hp : (actions.filterMap fun a => a.msg.promise).Nodup)
    (hs : runMeets step Sound .new actions) :
    ∃ w, runActions step .new actions = some w ∧ ListenersTold actions ∧ ShutdownsCompleted actions w ∧
      ChildrenKilled actions w := by
  obtain ⟨w, hrun, -⟩ := run_good good_new ho hs
  exact ⟨w, hrun, listeners_told ho hs, shutdowns_completed ho hp hs hrun, children_killed ho hs hrun⟩

/-- A component with a listener is started, and killed by a shutdown. -/
def startedAndShutDown : List (Action Nat Nat) :=
  [⟨.listen ⟨1, 1, false⟩ (.destroyed 7), fun _ => false⟩, ⟨.started ⟨7⟩, fun _ => false⟩,
    ⟨.shutdown ⟨2, 1, false⟩, fun _ => false⟩, ⟨.killed 7, fun _ => false⟩]

theorem supervisor_run_startedAndShutDown :
    ∃ w, runActions step .new startedAndShutDown = some w ∧ ListenersTold startedAndShutDown ∧
      ShutdownsCompleted startedAndShutDown w ∧ ChildrenKilled startedAndShutDown w :=
  supervisor_run (by simp [startedAndShutDown, SupervisorMsg.Owned]) (by decide) (by decide)

/-- A component with a listener is killed before it was ever started. -/
def killedUnstarted : List (Action Nat Nat) :=
  [⟨.listen ⟨1, 1, false⟩ (.destroyed 7), fun _ => false⟩, ⟨.killed 7, fun _ => false⟩]

/-- Two shutdowns wait for the same component. -/
def shutDownTwice : List (Action Nat Nat) :=
  [⟨.started ⟨7⟩, fun _ => false⟩, ⟨.shutdown ⟨1, 1, false⟩, fun _ => false⟩,
    ⟨.shutdown ⟨2, 1, false⟩, fun _ => false⟩, ⟨.killed 7, fun _ => false⟩]

/-- A component starts after the shutdown. -/
def startedLate : List (Action Nat Nat) :=
  [⟨.shutdown ⟨1, 1, false⟩, fun _ => false⟩, ⟨.started ⟨7⟩, fun _ => false⟩]

/-- The listener is not told, the first of two shutdowns is not completed, and the
late child is not killed. -/
theorem not_supervised :
    ¬ ListenersTold killedUnstarted ∧
      (∃ w, runActions step .new shutDownTwice = some w ∧ ¬ ShutdownsCompleted shutDownTwice w) ∧
      ∃ w, runActions step .new startedLate = some w ∧ ¬ ChildrenKilled startedLate w := by
  refine ⟨fun h => ?_, ⟨_, rfl, fun h => ?_⟩, ⟨_, rfl, fun h => ?_⟩⟩
  · obtain ⟨w₂, w₃, promises, hrun, hstep, hcomp, hmem⟩ := h [] _ _ _ [] _ rfl _ rfl trivial rfl
    obtain rfl := Option.some.inj hrun
    obtain rfl := Option.some.inj hstep
    rw [← show [] = promises from hcomp] at hmem
    cases hmem
  · have hempty : alive shutDownTwice = ∅ :=
      Set.sdiff_eq_empty.mpr (Set.insert_subset rfl (Set.empty_subset _))
    exact absurd ((h [_] _ _ [_, _] rfl).mpr ⟨_, List.prefix_rfl, hempty⟩) (by decide)
  · exact absurd (h ⟨_, _, List.mem_cons_self ..⟩ 7 (by decide)) (by decide)

end Kompact.Supervision
