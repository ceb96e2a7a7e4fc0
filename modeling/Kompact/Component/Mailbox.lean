import Kompact.Component.Accounting
import Kompact.Component.Wakeup

/-!
# What becomes of the items

A component with a record of the items that were pushed onto its queues and of
those that its executor took. Any number of enqueuers push at any time, and the
executions are cut short by limits, blocking futures, errors and panics.

* `InOrder`: from each queue the items are taken in the order in which they were
  pushed, each once, and what was not taken is still there;
* `Delivers`: the handler of a message or of a port's event runs when it is taken;
* `taken_in_order`: both hold in every run, and when all is at rest and the
  component can still run nothing is left in its queues.
-/

namespace Kompact.Component

open State

/-- The queues of a component. -/
inductive Source where
  | control
  | message
  | timeout
  | port (i : Nat)
  deriving DecidableEq, Repr

def Item.source : Item → Source
  | control _ => .control
  | message _ => .message
  | timeout _ => .timeout
  | port i _ => .port i

/-- The item that is still to be pushed. -/
def Enqueuer.pending? : Enqueuer → Option Item
  | pushing item _ => some item
  | pushed _ => none

namespace State

/-- The items in a queue. -/
def queueOf (s : State) : Source → List Item
  | .control => s.ctrlQueue.map .control
  | .message => s.msgQueue.map .message
  | .timeout => s.timerQueue.map .timeout
  | .port i => (s.portQueues[i]?.getD []).map (.port i)

/-- The items that are still to be pushed. -/
def pendingItems (s : State) : List Item := s.enqueuers.filterMap Enqueuer.pending?

/-- The item that an action pushes. -/
def pushes (s : State) : Action → List Item
  | .push k =>
    match s.enqueuers[k]? with
    | some (.pushing item _) => [item]
    | _ => []
  | _ => []

/-- The item that the executor takes at its place, if any. -/
def pops (cfg : Config) (s : State) : Pc → List Item
  | .control _ => (s.queueOf .control).take 1
  | .timers n => if n < cfg.maxEvents then (s.queueOf .timeout).take 1 else []
  | .messages n => if n < cfg.maxMessages then (s.queueOf .message).take 1 else []
  | .moreMessages n => if n < cfg.maxEvents then (s.queueOf .message).take 1 else []
  | .ports _ l =>
    if (l.first ∧ l.index < s.skip) ∨ l.rem ≤ l.count then [] else (s.queueOf (.port l.index)).take 1
  | _ => []

/-- The item that an action takes. -/
def takes (cfg : Config) (s : State) : Action → List Item
  | .exec => s.holder.elim [] (s.pops cfg)
  | _ => []

end State

/-- A component, and the items that were pushed and taken so far. -/
structure Traced where
  state : State
  pushed : List Item
  taken : List Item
  deriving DecidableEq, Repr

namespace Traced

def step (cfg : Config) (t : Traced) (a : Action) : Option Traced :=
  (t.state.step cfg a).map fun s => ⟨s, t.pushed ++ t.state.pushes a, t.taken ++ t.state.takes cfg a⟩

def initial (nPorts : Nat) : Traced := ⟨Component.initial nPorts, [], []⟩

end Traced

/-- The handler that runs for an item at once: a control event is entered in a step of its own, and
a timeout may have been cancelled. -/
def Item.delivery? : Item → Option Obs
  | message m => some (.message m)
  | port i _ => some (.port i)
  | _ => none

/-- The handler of a message or of an event of a port runs. -/
def Obs.isDelivery : Obs → Bool
  | message _ => true
  | port _ => true
  | _ => false

namespace Traced

/-- The items pushed onto a queue are those that were taken from it and those that are there. -/
def InOrder (t : Traced) : Prop :=
  ∀ q, t.pushed.filter (·.source = q) = t.taken.filter (·.source = q) ++ t.state.queueOf q

/-- The handlers that ran for messages and events are those of the items taken. -/
def Delivers (t : Traced) : Prop := t.state.log.filter Obs.isDelivery = t.taken.filterMap Item.delivery?

end Traced

/-- Nobody is at work for the component. -/
structure State.AtRest (s : State) : Prop where
  enqueuers : s.enqueuers = []
  queued : s.queued = 0
  starting : s.starting = 0
  locking : s.locking = 0
  holder : s.holder = none
  panicked : s.panicked = []
  decided : s.decided = []

instance (s : State) : Decidable s.AtRest :=
  decidable_of_iff (s.enqueuers = [] ∧ s.queued = 0 ∧ s.starting = 0 ∧ s.locking = 0 ∧ s.holder = none ∧
      s.panicked = [] ∧ s.decided = [])
    ⟨fun ⟨h₁, h₂, h₃, h₄, h₅, h₆, h₇⟩ => ⟨h₁, h₂, h₃, h₄, h₅, h₆, h₇⟩,
      fun ⟨h₁, h₂, h₃, h₄, h₅, h₆, h₇⟩ => ⟨h₁, h₂, h₃, h₄, h₅, h₆, h₇⟩⟩

namespace State

/-! ## What a step of the executor takes -/

/-- The queues are the same up to the items `items`, which were taken, and so are the handlers. -/
structure Gives (s s' : State) (items : List Item) : Prop where
  queues : ∀ q, s.queueOf q = items.filter (·.source = q) ++ s'.queueOf q
  handlers : s'.log.filter Obs.isDelivery = s.log.filter Obs.isDelivery ++ items.filterMap Item.delivery?

variable {cfg : Config} {s s' : State} {pc : Pc} {n : Nat}

/-- The queues are as they were, and what was logged is not the handler of an item. -/
theorem gives_nothing {l : List Obs} (hc : s'.ctrlQueue = s.ctrlQueue) (hm : s'.msgQueue = s.msgQueue)
    (ht : s'.timerQueue = s.timerQueue) (hp : s'.portQueues = s.portQueues) (hl : s'.log = s.log ++ l)
    (hn : l.filter Obs.isDelivery = []) : s.Gives s' [] where
  queues q := by cases q <;> simp only [queueOf, hc, hm, ht, hp] <;> rfl
  handlers := by rw [hl, List.filter_append, hn]; rfl

theorem gives_goto (s : State) (pc : Pc) : s.Gives (s.goto pc) [] :=
  gives_nothing rfl rfl rfl rfl (List.append_nil _).symm rfl

theorem filter_send (msg : SupervisorMsg) :
    (if cfg.supervised then [Obs.sent msg] else []).filter Obs.isDelivery = [] := by
  split <;> rfl

theorem Gives.trans {s'' : State} {items : List Item} (h : s.Gives s' []) (h' : s'.Gives s'' items) :
    s.Gives s'' items where
  queues q := by rw [h.queues q, h'.queues q]; rfl
  handlers := by rw [h'.handlers, h.handlers]; simp

/-- An item is taken from one of the queues, and what was logged is its handler. -/
theorem gives_one {item : Item} {rest : List Item} {l : List Obs} (h : s.queueOf item.source = item :: rest)
    (h' : s'.queueOf item.source = rest) (hq : ∀ q, q ≠ item.source → s'.queueOf q = s.queueOf q)
    (hl : s'.log = s.log ++ l) (hd : l.filter Obs.isDelivery = item.delivery?.toList) : s.Gives s' [item] where
  queues q := by
    by_cases hs : item.source = q
    · subst hs
      rw [h, h']
      simp
    · rw [hq q (Ne.symm hs)]
      simp [hs]
  handlers := by
    rw [hl, List.filter_append, hd, List.filterMap_cons]
    cases item.delivery? <;> rfl

theorem gives_popMessage (pc next : Pc) : s.Gives (s.popMessage pc next) ((s.queueOf .message).take 1) := by
  unfold popMessage
  split
  · rename_i hq
    rw [queueOf, hq]
    exact gives_goto s next
  · rename_i m msgQueue hq
    rw [show (s.queueOf .message).take 1 = [.message m] by rw [queueOf, hq]; rfl]
    refine gives_one ?_ rfl ?_ (l := [.message m]) rfl rfl
    · show s.msgQueue.map Item.message = _
      rw [hq]
      rfl
    · intro q hne
      cases q with
      | message => exact absurd rfl hne
      | control | timeout | port i => rfl

theorem gives_tryAction (n : Nat) : s.Gives (s.tryAction n) ((s.queueOf .timeout).take 1) := by
  unfold tryAction
  split
  · rename_i hq
    rw [queueOf, hq]
    exact gives_goto s _
  · rename_i id timerQueue hq
    rw [show (s.queueOf .timeout).take 1 = [.timeout id] by rw [queueOf, hq]; rfl]
    have hfirst : s.queueOf (Item.timeout id).source = .timeout id :: timerQueue.map .timeout := by
      show s.timerQueue.map Item.timeout = _
      rw [hq]
      rfl
    have hothers : ∀ (s' : State), s'.ctrlQueue = s.ctrlQueue → s'.msgQueue = s.msgQueue →
        s'.portQueues = s.portQueues → ∀ q, q ≠ (Item.timeout id).source → s'.queueOf q = s.queueOf q := by
      intro s' hc hm hp q hne
      cases q with
      | timeout => exact absurd rfl hne
      | control => rw [queueOf, hc]; rfl
      | message => rw [queueOf, hm]; rfl
      | port i => rw [queueOf, hp]; rfl
    simp only
    split
    · exact gives_one hfirst rfl (hothers _ rfl rfl rfl) (l := [.timer id]) rfl rfl
    · exact gives_one hfirst rfl (hothers _ rfl rfl rfl) (l := [.timer id]) rfl rfl
    · exact gives_one hfirst rfl (hothers _ rfl rfl rfl) (List.append_nil _).symm rfl

theorem queueOf_port (i : Nat) : s.queueOf (.port i) = (s.portQueues[i]?.getD []).map (.port i) := rfl

theorem gives_portStep (n : Nat) (l : PortLoop) : s.Gives (s.portStep n l) (s.pops cfg (.ports n l)) := by
  have hskip : ∀ skip pc, s.Gives ({ s with skip }.goto pc) [] := fun _ _ =>
    gives_nothing rfl rfl rfl rfl (List.append_nil _).symm rfl
  unfold portStep pops
  cases hq : s.portQueues[l.index]? with
  | none =>
    have hnone : (s.queueOf (.port l.index)).take 1 = [] := by rw [queueOf_port, hq]; rfl
    simp only [hnone, ite_self]
    split
    · exact gives_goto s _
    · exact hskip 0 _
  | some queue =>
    by_cases hfirst : l.first = true ∧ l.index < s.skip
    · simp only [if_pos hfirst, if_pos (Or.inl hfirst)]
      exact gives_goto s _
    by_cases hfull : l.rem ≤ l.count
    · simp only [if_neg hfirst, if_pos hfull, if_pos (Or.inr hfull)]
      exact hskip l.index _
    simp only [if_neg hfirst, if_neg hfull, if_neg (not_or.mpr ⟨hfirst, hfull⟩)]
    cases queue with
    | nil =>
      rw [queueOf_port, hq]
      exact gives_goto s _
    | cons e queue =>
      rw [show (s.queueOf (.port l.index)).take 1 = [.port l.index e] by rw [queueOf_port, hq]; rfl]
      obtain ⟨hlt, -⟩ := List.getElem?_eq_some_iff.mp hq
      refine gives_one (?_ : _ = _ :: queue.map (.port l.index)) ?_ ?_ (l := [.port l.index]) rfl rfl
      · show (s.portQueues[l.index]?.getD []).map _ = _
        rw [hq]
        rfl
      · show ((s.portQueues.set l.index queue)[l.index]?.getD []).map _ = _
        rw [List.getElem?_set_self hlt]
        rfl
      · intro q hne
        cases q with
        | control | message | timeout => rfl
        | port i =>
          have hi : l.index ≠ i := fun he => hne (he ▸ rfl)
          show ((s.portQueues.set l.index queue)[i]?.getD []).map _ = _
          rw [List.getElem?_set_ne hi]
          rfl

theorem gives_enterControl (n : Nat) (ev : ControlEvent) : s.Gives (s.enterControl n ev) [] := by
  unfold enterControl
  cases ev with
  | start => exact gives_nothing rfl rfl rfl rfl (l := [.onStart]) rfl rfl
  | stop => exact gives_nothing rfl rfl rfl rfl (l := [.onStop]) rfl rfl
  | kill => exact gives_nothing rfl rfl rfl rfl (l := [.setDestroyed, .onKill]) (List.append_assoc ..) rfl
  | poll tag => exact gives_goto s _

theorem gives_drop (n : Nat) : s.Gives (s.drop n) [] :=
  gives_nothing rfl rfl rfl rfl (List.append_nil _).symm rfl

theorem gives_send (msg : SupervisorMsg) : s.Gives (s.send cfg msg) [] :=
  gives_nothing rfl rfl rfl rfl rfl (filter_send msg)

theorem gives_setFlag (flag : Flag) : s.Gives (s.setFlag flag) [] :=
  gives_nothing rfl rfl rfl rfl (List.append_nil _).symm rfl

theorem gives_setDestroyed : s.Gives (s.setDestroyed cfg) [] :=
  (gives_nothing rfl rfl rfl rfl (l := [.setDestroyed]) rfl rfl : s.Gives s.markDestroyed []).trans (gives_send _)

theorem gives_setPassive : s.Gives (s.setPassive cfg) [] := (gives_setFlag _).trans (gives_send _)

theorem gives_beginShutdown (n : Nat) : s.Gives (s.beginShutdown n) [] :=
  gives_nothing rfl rfl rfl rfl (l := [.setDestroyed, .onKill]) (List.append_assoc ..) rfl

theorem gives_failRecoverable (n : Nat) : s.Gives (s.failRecoverable cfg n) [] :=
  ((gives_setFlag _).trans (gives_send _)).trans (gives_drop n)

theorem gives_failUnrecoverable (n : Nat) : s.Gives (s.failUnrecoverable cfg n) [] :=
  gives_setDestroyed.trans (gives_drop n)

theorem gives_block (t : StateTransition) (n : Nat) : s.Gives (s.block t n) [] :=
  (gives_setFlag _).trans (gives_goto _ _)

theorem gives_unblock (t : StateTransition) : s.Gives (s.unblock cfg t) [] := by
  cases t with
  | active => exact gives_setFlag _
  | started => exact (gives_setFlag _).trans (gives_send _)
  | passive => exact gives_setPassive
  | destroyed => exact gives_setDestroyed

theorem gives_settle (ev : ControlEvent) : s.Gives (s.settle cfg ev) [] := by
  cases ev with
  | start => exact gives_send _
  | stop => exact gives_setPassive
  | kill => exact gives_setDestroyed
  | poll tag => exact gives_nothing rfl rfl rfl rfl (List.append_nil _).symm rfl

theorem gives_decrement (n : Nat) (next : SchedulingDecision → Pc) : s.Gives (s.decrement n next) [] := by
  unfold decrement
  split
  · exact gives_nothing rfl rfl rfl rfl (List.append_nil _).symm rfl
  · exact gives_nothing rfl rfl rfl rfl (List.append_nil _).symm rfl

theorem gives_resolve (d : SchedulingDecision) (r : Option HandlerResult) : s.Gives (s.resolve cfg d r) [] := by
  cases r with
  | none => exact gives_goto s _
  | some r =>
    cases r with
    | ok | benign => exact gives_goto s _
    | blockOn => exact gives_nothing rfl rfl rfl rfl (List.append_nil _).symm rfl
    | shutdown => exact gives_beginShutdown 0
    | recoverable => exact gives_failRecoverable 0
    | unrecoverable => exact gives_failUnrecoverable 0

theorem gives_checkAndHandleBlocking (n : Nat) (next : Pc) (r : HandlerResult) :
    s.Gives (s.checkAndHandleBlocking cfg n next r) [] := by
  cases r with
  | ok | benign => exact gives_goto s _
  | blockOn => exact gives_block .active n
  | shutdown => exact gives_beginShutdown n
  | recoverable => exact gives_failRecoverable n
  | unrecoverable => exact gives_failUnrecoverable n

theorem gives_execStep (h : s.execStep cfg pc = some s') : s.Gives s' (s.pops cfg pc) := by
  cases pc with
  | begin =>
    simp only [execStep] at h
    split at h
    · obtain rfl := Option.some.inj h
      exact gives_nothing rfl rfl rfl rfl (List.append_nil _).symm rfl
    · obtain rfl := Option.some.inj h
      exact gives_nothing rfl rfl rfl rfl (List.append_nil _).symm rfl
  | control n =>
    simp only [execStep] at h
    split at h
    · rename_i hq
      obtain rfl := Option.some.inj h
      rw [pops, queueOf, hq]
      exact gives_goto s _
    · rename_i ev ctrlQueue hq
      obtain rfl := Option.some.inj h
      rw [show s.pops cfg (.control n) = [.control ev] by rw [pops, queueOf, hq]; rfl]
      refine gives_one ?_ rfl ?_ (List.append_nil _).symm rfl
      · show s.ctrlQueue.map Item.control = _
        rw [hq]
        rfl
      · intro q hne
        cases q with
        | control => exact absurd rfl hne
        | message | timeout | port i => rfl
  | timers n =>
    obtain rfl := Option.some.inj h
    simp only [pops]
    split
    · exact gives_tryAction n
    · exact gives_goto s _
  | messages n =>
    obtain rfl := Option.some.inj h
    simp only [pops]
    split
    · exact gives_popMessage _ _
    · exact gives_goto s _
  | moreMessages n =>
    obtain rfl := Option.some.inj h
    simp only [pops]
    split
    · exact gives_popMessage _ _
    · exact gives_goto s _
  | ports n l =>
    obtain rfl := Option.some.inj h
    exact gives_portStep n l
  | loadDecision | activeCheck | events =>
    obtain rfl := Option.some.inj h
    exact gives_goto s _
  | enter ev n =>
    obtain rfl := Option.some.inj h
    exact gives_enterControl n ev
  | subtract n r =>
    obtain rfl := Option.some.inj h
    exact gives_decrement n _
  | finish n =>
    obtain rfl := Option.some.inj h
    exact gives_decrement n _
  | resolve r d =>
    obtain rfl := Option.some.inj h
    exact gives_resolve d r
  | returning d =>
    obtain rfl := Option.some.inj h
    exact gives_nothing rfl rfl rfl rfl (List.append_nil _).symm rfl
  | _ => cases h

theorem gives_handlerReturns {r : HandlerResult} (h : s.handlerReturns cfg r pc = some s') : s.Gives s' [] := by
  cases pc with
  | inControl ev n =>
    cases r with
    | ok | benign =>
      obtain rfl := Option.some.inj h
      exact (gives_settle ev).trans (gives_goto _ _)
    | blockOn =>
      obtain rfl := Option.some.inj h
      exact gives_block _ _
    | shutdown =>
      obtain rfl := Option.some.inj h
      split
      · exact gives_setDestroyed.trans (gives_drop _)
      · exact gives_beginShutdown _
    | recoverable =>
      obtain rfl := Option.some.inj h
      exact gives_failRecoverable _
    | unrecoverable =>
      obtain rfl := Option.some.inj h
      exact gives_failUnrecoverable _
  | inTimer n | inMessage n | inMoreMessage n =>
    obtain rfl := Option.some.inj h
    exact gives_checkAndHandleBlocking _ _ r
  | inPort n l =>
    have hskip : s.Gives { s with skip := l.index } [] :=
      gives_nothing rfl rfl rfl rfl (List.append_nil _).symm rfl
    cases r with
    | ok =>
      obtain rfl := Option.some.inj h
      exact gives_goto s _
    | blockOn | shutdown | benign | recoverable | unrecoverable =>
      obtain rfl := Option.some.inj h
      exact hskip.trans (gives_checkAndHandleBlocking _ _ _)
  | inShutdown n =>
    cases r with
    | blockOn =>
      obtain rfl := Option.some.inj h
      exact gives_nothing rfl rfl rfl rfl (List.append_nil _).symm rfl
    | ok | shutdown | benign | recoverable | unrecoverable =>
      obtain rfl := Option.some.inj h
      exact gives_setDestroyed.trans (gives_drop n)
  | _ => cases h

theorem gives_polled {r : Option HandlerResult} (h : State.polled cfg s r pc = some s') : s.Gives s' [] := by
  cases polls_of_polled h with
  | pending hp hr => exact gives_nothing rfl rfl rfl rfl (List.append_nil _).symm rfl
  | completed hp hr => exact (gives_unblock _).trans (gives_goto _ _)
  | shutdown ht => exact gives_beginShutdown 0
  | recoverable => exact gives_failRecoverable 0
  | unrecoverable => exact gives_failUnrecoverable 0
  | failed hr => exact gives_goto s _

/-! ## What any step pushes and takes -/

/-- A step that pushes puts the item at the end of its queue. -/
theorem queueOf_pushItem {item : Item} (ha : s.Accepts item) (q : Source) :
    (s.pushItem item).queueOf q = s.queueOf q ++ [item].filter (·.source = q) := by
  cases item with
  | control ev => cases q <;> simp [queueOf, pushItem, Item.source]
  | message m => cases q <;> simp [queueOf, pushItem, Item.source]
  | timeout id => cases q <;> simp [queueOf, pushItem, Item.source]
  | port i e =>
    have hi : i < s.portQueues.length := ha
    cases q with
    | control | message | timeout => simp [queueOf, pushItem, Item.source]
    | port j =>
      by_cases hij : i = j
      · subst hij
        simp [queueOf, pushItem, Item.source, hi]
      · simp [queueOf, pushItem, Item.source, hij]

theorem log_pushItem (item : Item) : (s.pushItem item).log = s.log := by cases item <;> rfl

theorem step_push {k : Nat} (h : s.step cfg (.push k) = some s') :
    ∃ item d, s.enqueuers[k]? = some (.pushing item d) ∧ s.Accepts item ∧
      s' = { s with enqueuers := s.enqueuers.set k (.pushed d) }.pushItem item := by
  simp only [step] at h
  split at h
  · cases h
  split at h
  · rename_i item d hk
    split at h
    · exact ⟨item, d, hk, ‹_›, (Option.some.inj h).symm⟩
    · cases h
  · cases h

theorem step_exec (h : s.step cfg .exec = some s') : ∃ pc, s.holder = some pc ∧ s.execStep cfg pc = some s' := by
  simp only [step] at h
  split at h
  · cases h
  · exact Option.bind_eq_some_iff.mp h

/-- All other steps leave the queues as they are. -/
theorem gives_other {a : Action} (hp : ∀ k, a ≠ .push k) (he : a ≠ .exec) (h : s.step cfg a = some s') :
    s.Gives s' [] := by
  cases (does_of_step h).2 with
  | push hk ha => exact absurd rfl (hp _)
  | exec hh hrun => exact absurd rfl he
  | returns hh hrun => exact gives_handlerReturns hrun
  | polled hh hrun => exact gives_polled hrun
  | @faulted k n hk =>
    have hsame : s.Gives { s with
        panicked := s.panicked.eraseIdx k, leaked := s.leaked + n, decided := .noWork :: s.decided } [] :=
      gives_nothing rfl rfl rfl rfl (List.append_nil _).symm rfl
    exact (hsame.trans (gives_setFlag _)).trans (gives_send _)
  | _ => exact gives_nothing rfl rfl rfl rfl (List.append_nil _).symm rfl

end State

/-! ## What is still to be pushed -/

namespace State

variable {cfg : Config} {s s' : State} {pc : Pc} {n : Nat}

theorem enqueuers_decrement {next : SchedulingDecision → Pc} : (s.decrement n next).enqueuers = s.enqueuers := by
  unfold decrement
  split <;> rfl

theorem enqueuers_execStep (h : s.execStep cfg pc = some s') : s'.enqueuers = s.enqueuers := by
  cases executes_of_execStep h with
  | loop hpc hpc' ht hk => exact ht.keeps.enqueuers
  | @enter ev n => cases ev <;> rfl
  | @resolve r d =>
    rcases r with _ | r
    · rfl
    · cases r <;> rfl
  | subtract | finish => exact enqueuers_decrement
  | _ => rfl

theorem enqueuers_checkAndHandleBlocking (next : Pc) (r : HandlerResult) :
    (s.checkAndHandleBlocking cfg n next r).enqueuers = s.enqueuers := by
  cases r <;> rfl

theorem enqueuers_handlerReturns {r : HandlerResult} (h : s.handlerReturns cfg r pc = some s') :
    s'.enqueuers = s.enqueuers := by
  cases pc with
  | inControl ev n =>
    cases r with
    | shutdown =>
      obtain rfl := Option.some.inj h
      split <;> rfl
    | ok | benign =>
      obtain rfl := Option.some.inj h
      cases ev <;> rfl
    | blockOn | recoverable | unrecoverable =>
      obtain rfl := Option.some.inj h
      rfl
  | inTimer n | inMessage n | inMoreMessage n =>
    obtain rfl := Option.some.inj h
    exact enqueuers_checkAndHandleBlocking _ r
  | inPort n l =>
    cases r with
    | ok =>
      obtain rfl := Option.some.inj h
      rfl
    | blockOn | shutdown | benign | recoverable | unrecoverable =>
      obtain rfl := Option.some.inj h
      exact enqueuers_checkAndHandleBlocking _ _
  | inShutdown n => cases r <;> (obtain rfl := Option.some.inj h; rfl)
  | _ => cases h

theorem enqueuers_polled {r : Option HandlerResult} (h : State.polled cfg s r pc = some s') :
    s'.enqueuers = s.enqueuers := by
  cases polls_of_polled h with
  | @completed t pc back next r r' hp hr => cases t <;> rfl
  | _ => rfl

/-- What a step does with the items that are still to be pushed. -/
inductive PendingStep (s s' : State) (a : Action) : List Item → Prop
  | more (items : List Item) (hi : ∀ item ∈ items, a = .increment item)
      (h : s'.pendingItems = items ++ s.pendingItems) : PendingStep s s' a []
  | push (before after : List Item) (item : Item) (hb : s.pendingItems = before ++ item :: after)
      (h : s'.pendingItems = before ++ after) : PendingStep s s' a [item]

theorem PendingStep.same {a : Action} (h : s'.enqueuers = s.enqueuers) : PendingStep s s' a [] :=
  .more [] (fun _ hi => nomatch hi) (by rw [pendingItems, h]; rfl)

theorem pendingItems_set {k : Nat} {item : Item} {d : SchedulingDecision}
    (hk : s.enqueuers[k]? = some (.pushing item d)) :
    ∃ before after, s.pendingItems = before ++ item :: after ∧
      (s.enqueuers.set k (.pushed d)).filterMap Enqueuer.pending? = before ++ after := by
  obtain ⟨hlt, hget⟩ := List.getElem?_eq_some_iff.mp hk
  have hsplit : s.enqueuers = s.enqueuers.take k ++ .pushing item d :: s.enqueuers.drop (k + 1) := by
    rw [← hget, ← List.drop_eq_getElem_cons hlt, List.take_append_drop]
  refine ⟨(s.enqueuers.take k).filterMap Enqueuer.pending?,
    (s.enqueuers.drop (k + 1)).filterMap Enqueuer.pending?, ?_, ?_⟩
  · show s.enqueuers.filterMap Enqueuer.pending? = _
    conv_lhs => rw [hsplit]
    rw [List.filterMap_append]
    rfl
  · rw [List.set_eq_take_append_cons_drop, if_pos hlt, List.filterMap_append]
    rfl

theorem pendingItems_eraseIdx {k : Nat} {d : SchedulingDecision} (hk : s.enqueuers[k]? = some (.pushed d)) :
    (s.enqueuers.eraseIdx k).filterMap Enqueuer.pending? = s.pendingItems := by
  obtain ⟨hlt, hget⟩ := List.getElem?_eq_some_iff.mp hk
  have hsplit : s.enqueuers = s.enqueuers.take k ++ .pushed d :: s.enqueuers.drop (k + 1) := by
    rw [← hget, ← List.drop_eq_getElem_cons hlt, List.take_append_drop]
  show _ = s.enqueuers.filterMap Enqueuer.pending?
  conv_rhs => rw [hsplit]
  rw [List.eraseIdx_eq_take_drop_succ, List.filterMap_append, List.filterMap_append]
  rfl

/-- An item that is enqueued is to be pushed, where the process does not abort. -/
theorem pendingStep_increment {item : Item} (h : s.step cfg (.increment item) = some s') :
    s'.pendingItems = item :: s.pendingItems ∧ s'.crashed = none ∨
      s'.pendingItems = s.pendingItems ∧ s'.crashed ≠ none := by
  simp only [step] at h
  split at h
  · cases h
  rename_i hc
  split at h
  swap
  · cases h
  split at h
  · obtain rfl := Option.some.inj h
    exact .inl ⟨rfl, by simpa using hc⟩
  · obtain rfl := Option.some.inj h
    exact .inr ⟨rfl, Option.some_ne_none _⟩

theorem pendingStep_other {a : Action} (hi : ∀ item, a ≠ .increment item) (hp : ∀ k, a ≠ .push k) (he : a ≠ .exec)
    (h : s.step cfg a = some s') : PendingStep s s' a [] := by
  cases (does_of_step h).2 with
  | increment hacc hw => exact absurd rfl (hi _)
  | finishEnqueue hk => exact .more [] (fun _ hi => nomatch hi) (pendingItems_eraseIdx hk)
  | push hk hacc => exact absurd rfl (hp _)
  | exec hh hrun => exact absurd rfl he
  | returns hh hrun => exact .same (enqueuers_handlerReturns hrun)
  | polled hh hrun => exact .same (enqueuers_polled hrun)
  | _ => exact .same rfl

theorem pendingStep_of_step {a : Action} (h : s.step cfg a = some s') : PendingStep s s' a (s.pushes a) := by
  cases a with
  | increment item =>
    rcases pendingStep_increment h with ⟨hp, -⟩ | ⟨hp, -⟩
    · exact .more [item] (fun x hx => by rw [List.mem_singleton.mp hx]) hp
    · exact .more [] (fun _ hi => nomatch hi) hp
  | push k =>
    obtain ⟨item, d, hk, -, rfl⟩ := step_push h
    obtain ⟨before, after, hb, haft⟩ := pendingItems_set hk
    rw [show s.pushes (.push k) = [item] by rw [pushes, hk]]
    refine .push before after item hb ?_
    rw [← haft]
    cases item <;> rfl
  | exec =>
    obtain ⟨pc, -, hrun⟩ := step_exec h
    exact .same (enqueuers_execStep hrun)
  | _ => exact pendingStep_other (by nofun) (by nofun) (by nofun) h

end State

namespace Traced

variable {cfg : Config} {t t' : Traced}

/-- Both are kept where items are taken, and nothing is pushed. -/
theorem ordered_taken {s : State} {items : List Item} (h : t.InOrder ∧ t.Delivers) (hg : t.state.Gives s items) :
    InOrder ⟨s, t.pushed ++ [], t.taken ++ items⟩ ∧ Delivers ⟨s, t.pushed ++ [], t.taken ++ items⟩ := by
  refine ⟨fun q => ?_, ?_⟩
  · rw [List.append_nil, List.filter_append, List.append_assoc, ← hg.queues q]
    exact h.1 q
  · show s.log.filter _ = (t.taken ++ items).filterMap _
    rw [hg.handlers, List.filterMap_append, show _ = _ from h.2]

theorem ordered_step {a : Action} (h : t.InOrder ∧ t.Delivers) (hs : t.step cfg a = some t') :
    t'.InOrder ∧ t'.Delivers := by
  obtain ⟨s, hstep, rfl⟩ := Option.map_eq_some_iff.mp hs
  cases a with
  | push k =>
    obtain ⟨item, d, hk, ha, rfl⟩ := step_push hstep
    have hp : t.state.pushes (.push k) = [item] := by rw [pushes, hk]
    refine ⟨fun q => ?_, ?_⟩
    · have hq : (pushItem { t.state with enqueuers := t.state.enqueuers.set k (.pushed d) } item).queueOf q =
          t.state.queueOf q ++ [item].filter (·.source = q) :=
        queueOf_pushItem (s := { t.state with enqueuers := t.state.enqueuers.set k (.pushed d) }) ha q
      show (t.pushed ++ t.state.pushes (.push k)).filter _ = (t.taken ++ []).filter _ ++ _
      rw [hp, hq, List.append_nil, List.filter_append, h.1 q, List.append_assoc]
    · show (State.log _).filter _ = (t.taken ++ []).filterMap _
      rw [log_pushItem, List.append_nil]
      exact h.2
  | exec =>
    obtain ⟨pc, hh, hrun⟩ := step_exec hstep
    have ht : t.state.takes cfg .exec = t.state.pops cfg pc := by rw [takes, hh]; rfl
    rw [ht]
    exact ordered_taken h (gives_execStep hrun)
  | _ => exact ordered_taken h (gives_other (by nofun) (by nofun) hstep)

/-- What a run of the record does to the component is a run of the component. -/
theorem reach_state {nPorts : Nat} (h : Reach (step cfg) (fun _ _ => True) (initial nPorts) t) :
    Reach (State.step cfg) (fun _ _ => True) (Component.initial nPorts) t.state := by
  induction h with
  | init => exact .init
  | step _ _ hs ih =>
    obtain ⟨s, hstep, rfl⟩ := Option.map_eq_some_iff.mp hs
    exact ih.step trivial hstep

end Traced

/-! ## At rest -/

namespace State

variable {s : State}

/-- A component that can run and has work is not left alone. -/
theorem count_atRest (h : s.AtRest) (ha : s.Awake) (hr : s.Runnable) : s.word.count = 0 := by
  rcases Nat.eq_zero_or_pos s.word.count with h0 | h0
  · exact h0
  rcases ha.attended hr h0 with ⟨pc, hpc, -⟩ | hq | hq | hq | hq | ⟨d, hd, -⟩ | ⟨e, he, -⟩
  · rw [h.holder] at hpc
    cases hpc
  · exact absurd hq (by rw [h.queued]; exact Nat.lt_irrefl 0)
  · exact absurd hq (by rw [h.starting]; exact Nat.lt_irrefl 0)
  · exact absurd hq (by rw [h.locking]; exact Nat.lt_irrefl 0)
  · exact absurd h.panicked hq
  · rw [h.decided] at hd
    cases hd
  · rw [h.enqueuers] at he
    cases he

/-- Without work the queues are empty. -/
theorem queueOf_nil (hb : s.Balanced) (h0 : s.word.count = 0) (q : Source) : s.queueOf q = [] := by
  have hitems : s.items = 0 := by
    have := hb.1
    omega
  unfold items at hitems
  cases q with
  | control => rw [queueOf, List.map_eq_nil_iff, ← List.length_eq_zero_iff]; omega
  | message => rw [queueOf, List.map_eq_nil_iff, ← List.length_eq_zero_iff]; omega
  | timeout => rw [queueOf, List.map_eq_nil_iff, ← List.length_eq_zero_iff]; omega
  | port i =>
    rw [queueOf, List.map_eq_nil_iff]
    cases hq : s.portQueues[i]? with
    | none => rfl
    | some queue =>
      have hmem : queue.length ∈ s.portQueues.map List.length :=
        List.mem_map_of_mem (List.mem_of_getElem? hq)
      have hle := List.single_le_sum (fun _ _ => Nat.zero_le _) _ hmem
      show queue = []
      exact List.length_eq_zero_iff.mp (by omega)

theorem drained {cfg : Config} {nPorts : Nat} (h : Reach (step cfg) (fun _ _ => True) (initial nPorts) s)
    (hrest : s.AtRest) (hrun : s.Runnable) (q : Source) : s.queueOf q = [] := by
  have hawake : s.Awake := h.invariant Awake (awake_initial nPorts) fun hi _ hs => hi.step hs
  have hbal : s.Balanced := by
    refine h.invariant Balanced ⟨?_, fun hc => by cases hc⟩ fun hi _ hs => hi.step hs
    simp [initial, items, pending, dequeued, Lifecycle.initialState]
  exact queueOf_nil hbal (count_atRest hrest hawake hrun) q

end State

variable {cfg : Config} {nPorts : Nat} {t : Traced}

namespace Traced

theorem ordered (h : Reach (step cfg) (fun _ _ => True) (initial nPorts) t) : t.InOrder ∧ t.Delivers :=
  h.invariant (fun t => t.InOrder ∧ t.Delivers)
    ⟨fun q => by cases q <;> simp [initial, Component.initial, State.queueOf], rfl⟩
    fun hi _ hs => ordered_step hi hs

end Traced

/-- In every run, however enqueuers, schedulers and executors are interleaved and whatever the
handlers return: the items are taken from each queue in the order in which they were pushed, each
once, and the handler of each message and port event runs when it is taken. Where nobody is at work
for the component any more and it is active or passive, nothing is left. -/
theorem taken_in_order (h : Reach (Traced.step cfg) (fun _ _ => True) (.initial nPorts) t) :
    (∀ q, t.pushed.filter (·.source = q) = t.taken.filter (·.source = q) ++ t.state.queueOf q) ∧
      t.state.log.filter Obs.isDelivery = t.taken.filterMap Item.delivery? ∧
      (t.state.AtRest → t.state.Runnable → ∀ q, t.taken.filter (·.source = q) = t.pushed.filter (·.source = q)) := by
  obtain ⟨hord, hdel⟩ := Traced.ordered h
  refine ⟨hord, hdel, fun hrest hrun q => ?_⟩
  rw [hord q, State.drained (Traced.reach_state h) hrest hrun q, List.append_nil]

/-- A component is started; a message and an event of a port are on their way at the same time. -/
def startAndDeliver : List Action :=
  [.increment (.control .start), .push 0, .increment (.port 0 5), .increment (.message 7), .push 0, .push 1,
    .finishEnqueue 0, .finishEnqueue 0, .finishEnqueue 0, .dispatch, .load, .acquire, .exec, .exec, .exec,
    .returns .ok, .exec, .exec, .exec, .exec, .returns .ok, .exec, .exec, .exec, .returns .ok, .exec, .exec, .exec,
    .exec, .exec, .exec, .act 0]

theorem taken_in_order_all :
    ∃ h : (runActions (Traced.step ⟨10, 5, true⟩) (.initial 1) startAndDeliver).isSome,
      (Option.get _ h).pushed = [.control .start, .message 7, .port 0 5] ∧
      (Option.get _ h).state.log = [.onStart, .sent .started, .message 7, .port 0] ∧
      (Option.get _ h).taken.filter (·.source = .port 0) = [.port 0 5] := by
  refine ⟨by decide, by decide, by decide, ?_⟩
  have hreach : Reach (Traced.step ⟨10, 5, true⟩) (fun _ _ => True) (.initial 1) _ :=
    Reach.of_run startAndDeliver (by decide) (runMeets_true _ _)
  have hrun := taken_in_order hreach
  rw [hrun.2.2 (by decide) (.inl (by decide))]
  decide

end Kompact.Component
