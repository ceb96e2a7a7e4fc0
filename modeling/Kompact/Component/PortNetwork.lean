import Kompact.Component.Mailbox
import Kompact.Component.PortChannels
import Mathlib.Data.List.Nodup

/-!
# Events from port to port

Components whose ports are connected with each other. Triggering an event goes
through the connections one by one, and anything may happen between two of
them: the components execute, other events are triggered, ports are connected
and disconnected, and components without references to them are deallocated.

An event is known by its number in the order of triggering.

* `Holds`: what a port is owed from another one is what it has been given, what
  is about to be pushed, and what the trigger under way still has to enqueue;
* `events_handled`: from there, what was handled, with the order of each queue;
* `ends_agree`: two ports have each other equally often, as long as connections
  are made and removed at both ends.
-/

namespace Kompact

namespace Ports

/-- Whether a port is provided or required. -/
inductive Side where
  | provided
  | required
  deriving DecidableEq, Repr

inductive OwnershipResult where
  | owned
  | notOwned
  | deallocated
  deriving DecidableEq, Repr

def PortRef.ownedByComponentWithId (alive : Alive) (c : PortRef) (componentId : Nat) : OwnershipResult :=
  if alive.component c.component then
    if c.component = componentId then .owned else .notOwned
  else .deallocated

/-- The closure of `clear_by_id`. -/
def PortRef.cleared (alive : Alive) (componentId : Nat) (c : PortRef) : Bool :=
  match c.ownedByComponentWithId alive componentId with
  | .owned => true
  | .deallocated => true
  | .notOwned => false

def CommonPortData.clearById (alive : Alive) (componentId : Nat) (common : CommonPortData) : Bool × CommonPortData :=
  (common.provideChannels.any (·.cleared alive componentId) ||
      common.requireChannels.any (·.cleared alive componentId),
    { provideChannels := common.provideChannels.filter fun c => !c.cleared alive componentId
      requireChannels := common.requireChannels.filter fun c => !c.cleared alive componentId })

namespace Definition

/-- The connections of a port. -/
def channels (d : Definition) : Side → List PortRef
  | .provided => d.provided.common.requireChannels
  | .required => d.required.common.provideChannels

def connect (c : PortRef) (d : Definition) : Side → Definition
  | .provided => { d with provided := d.provided.connect c }
  | .required => { d with required := d.required.connect c }

def disconnectPort (c : PortRef) (d : Definition) : Side → Definition
  | .provided => { d with provided := (d.provided.disconnectPort c).2 }
  | .required => { d with required := (d.required.disconnectPort c).2 }

def disconnectComponent (alive : Alive) (componentId : Nat) (d : Definition) : Side → Definition
  | .provided => { d with provided := ⟨(d.provided.common.clearById alive componentId).2⟩ }
  | .required => { d with required := ⟨(d.required.common.clearById alive componentId).2⟩ }

/-- The end of `trigger`. -/
def cleanup (alive : Alive) (d : Definition) : Side → Definition
  | .provided => { d with provided := ⟨d.provided.common.cleanup alive⟩ }
  | .required => { d with required := ⟨d.required.common.cleanup alive⟩ }

variable {d : Definition} {side : Side} {c : PortRef} {alive : Alive} {n : Nat}

theorem channels_connect : (d.connect c side).channels side = d.channels side ++ [c] := by cases side <;> rfl

theorem channels_disconnectPort :
    (d.disconnectPort c side).channels side = (d.channels side).filter fun other => !c.eq other := by
  cases side with
  | provided => simp [disconnectPort, channels, ProvidedPort.disconnectPort_eq, ProvidedPort.without]
  | required => simp [disconnectPort, channels, RequiredPort.disconnectPort_eq, RequiredPort.without]

theorem channels_disconnectComponent :
    (d.disconnectComponent alive n side).channels side = (d.channels side).filter fun c => !c.cleared alive n := by
  cases side <;> rfl

theorem channels_cleanup : (d.cleanup alive side).channels side = (d.channels side).filter (·.isLive alive) := by
  cases side <;> rfl

end Definition

end Ports

namespace Component

/-- An event is enqueued at a port, which its `trigger` does. -/
def Action.isPortEvent : Action → Bool
  | increment (.port _ _) => true
  | _ => false

end Component

namespace PortNetwork

open Ports Component

/-- A port: the component it belongs to, and its place among the ports of the component. -/
structure Port where
  component : Nat
  index : Nat
  side : Side
  deriving DecidableEq, Repr

/-- The ports of all components. A port is known by its position here, which stands for the address
of its queue as well. -/
structure Layout where
  ports : List Port
  nodup : (ports.map fun p => (p.component, p.index)).Nodup
  numbered : ∀ p ∈ ports, p.index < ports.countP (·.component = p.component)

namespace Layout

def port (l : Layout) (q : Nat) : Port := l.ports.getD q ⟨0, 0, .provided⟩

def component (l : Layout) (q : Nat) : Nat := (l.port q).component

def index (l : Layout) (q : Nat) : Nat := (l.port q).index

def side (l : Layout) (q : Nat) : Side := (l.port q).side

def size (l : Layout) : Nat := l.ports.length

/-- How many ports a component has. -/
def nPorts (l : Layout) (c : Nat) : Nat := l.ports.countP (·.component = c)

/-- The reference to a port. -/
def share (l : Layout) (q : Nat) : PortRef := ⟨l.component q, q⟩

/-- The ports exist, and one is provided and the other required. -/
def Fits (l : Layout) (q r : Nat) : Prop := q < l.size ∧ r < l.size ∧ l.side q ≠ l.side r

instance (l : Layout) (q r : Nat) : Decidable (l.Fits q r) := inferInstanceAs (Decidable (_ ∧ _))

end Layout

/-- A `trigger` under way: the event, the connections that it has not come to, the one whose
`enqueue` was begun last, and whether one was found deallocated. -/
structure Trigger where
  event : Nat
  rest : List PortRef
  waiting : Option PortRef
  cleanupRequired : Bool
  deriving DecidableEq, Repr

/-- `history` has the port that each event was triggered on, with the connections it had then. -/
structure System where
  components : Nat → Traced
  defs : Definitions
  alive : Nat → Bool
  triggers : Nat → Option Trigger
  history : List (Nat × List PortRef)

inductive Action where
  | component (c : Nat) (a : Component.Action)
  | trigger (q : Nat)
  /-- The `trigger` under way at a port goes on. -/
  | advance (q : Nat)
  /-- `biconnect_components` and `biconnect_ports`. -/
  | biconnect (p r : Nat)
  | connect (q r : Nat)
  | disconnectPort (q r : Nat)
  | disconnectComponent (q c : Nat)
  /-- A `TwoWayChannel` is disconnected; with why the locks cannot be had, if so. -/
  | disconnect (p r : Nat) (provider requirer : Option TryLockError)
  /-- The last reference to a component is dropped. -/
  | dealloc (c : Nat)
  deriving DecidableEq, Repr

namespace System

def initial (l : Layout) : System where
  components c := .initial (l.nPorts c)
  defs _ := ⟨⟨[], []⟩, ⟨[], []⟩⟩
  alive _ := true
  triggers _ := none
  history := []

variable (l : Layout) (cfg : Nat → Component.Config)

/-- The queue of a port is deallocated with its component. -/
def living (s : System) : Alive := ⟨s.alive, fun q => s.alive (l.component q)⟩

def channels (s : System) (q : Nat) : List PortRef := (s.defs q).channels (l.side q)

def setDef (s : System) (q : Nat) (d : Definition) : System := { s with defs := Function.update s.defs q d }

def setComponent (s : System) (c : Nat) (t : Traced) : System :=
  { s with components := Function.update s.components c t }

def setTrigger (s : System) (q : Nat) (t : Option Trigger) : System :=
  { s with triggers := Function.update s.triggers q t }

/-- The `enqueue` that was begun last has not pushed the event yet. -/
def enqueuing (s : System) (t : Trigger) : Bool :=
  t.waiting.any fun c =>
    (s.components c.component).state.pendingItems.contains (.port (l.index c.queue) t.event)

/-- One round of the loop of `trigger`, or its end. A reference is upgraded for its `enqueue`, which
begins with the increment. -/
def advance (s : System) (q : Nat) (t : Trigger) : Option System :=
  match t.rest with
  | [] =>
    let s := s.setTrigger q none
    some (if t.cleanupRequired then s.setDef q ((s.defs q).cleanup (s.living l) (l.side q)) else s)
  | c :: rest =>
    if c.isLive (s.living l) then
      ((s.components c.component).step (cfg c.component) (.increment (.port (l.index c.queue) t.event))).map fun t' =>
        (s.setComponent c.component t').setTrigger q (some { t with rest, waiting := some c })
    else some (s.setTrigger q (some { t with rest, waiting := none, cleanupRequired := true }))

/-- Nothing is triggered on a port, so that it can be changed. -/
def Free (s : System) (q : Nat) : Prop := s.alive (l.component q) = true ∧ s.triggers q = none

instance (s : System) (q : Nat) : Decidable (s.Free l q) := inferInstanceAs (Decidable (_ ∧ _))

/-- No trigger is under way at a port of the component. -/
def Unused (s : System) (c : Nat) : Prop := ∀ q < l.size, l.component q = c → s.triggers q = none

instance (s : System) (c : Nat) : Decidable (s.Unused l c) := inferInstanceAs (Decidable (∀ q < _, _))

/-- One step. A lock can be had only if no trigger is under way at the port; it may be held for other
reasons. -/
def step (s : System) : Action → Option System
  | .component c a =>
    if s.alive c = true ∧ a.isPortEvent = false then
      ((s.components c).step (cfg c) a).map (s.setComponent c)
    else none
  | .trigger q =>
    if q < l.size ∧ s.Free l q then
      some ({ s with history := s.history ++ [(q, s.channels l q)] }.setTrigger q
        (some ⟨s.history.length, s.channels l q, none, false⟩))
    else none
  | .advance q =>
    match s.triggers q with
    | some t => if s.enqueuing l t then none else s.advance l cfg q t
    | none => none
  | .biconnect p r =>
    if l.Fits p r ∧ s.Free l p ∧ s.Free l r then
      let s := s.setDef p ((s.defs p).connect (l.share r) (l.side p))
      some (s.setDef r ((s.defs r).connect (l.share p) (l.side r)))
    else none
  | .connect q r =>
    if l.Fits q r ∧ s.Free l q then some (s.setDef q ((s.defs q).connect (l.share r) (l.side q))) else none
  | .disconnectPort q r =>
    if l.Fits q r ∧ s.Free l q then some (s.setDef q ((s.defs q).disconnectPort (l.share r) (l.side q))) else none
  | .disconnectComponent q c =>
    if s.Free l q then some (s.setDef q ((s.defs q).disconnectComponent (s.living l) c (l.side q))) else none
  | .disconnect p r provider requirer =>
    if l.Fits p r ∧ l.side p = .provided ∧ (provider = none → s.triggers p = none) ∧
        (requirer = none → s.triggers r = none) then
      let ch : TwoWayChannel := ⟨p, r, l.share p, l.share r⟩
      some { s with defs :=
        ((ch.disconnectByRef ⟨s.alive (l.component p), provider⟩
          ⟨s.alive (l.component r), requirer⟩).run.run s.defs).2 }
    else none
  | .dealloc c =>
    if s.alive c = true ∧ (s.components c).state.AtRest ∧ s.Unused l c then
      some { s with alive := Function.update s.alive c false }
    else none

end System

/-! ## What is owed and what arrived -/

/-- The events that port `r` is owed by port `q`: an event for each connection that `q` had to it. -/
def owed (history : List (Nat × List PortRef)) (q r : Nat) : List Nat :=
  history.zipIdx.flatMap fun ((source, channels), n) =>
    if source = q then List.replicate (channels.countP (·.queue = r)) n else []

/-- The event that an item is, if it was triggered on `q` and is for the port at place `i`. -/
def eventOf (history : List (Nat × List PortRef)) (q i : Nat) : Item → Option Nat
  | .port j n => if j = i ∧ (history[n]?).map Prod.fst = some q then some n else none
  | _ => none

def eventsOf (history : List (Nat × List PortRef)) (q i : Nat) (items : List Item) : List Nat :=
  items.filterMap (eventOf history q i)

/-- The events the trigger under way at `q` has still to enqueue at `r`. -/
def toCome (trigger : Option Trigger) (r : Nat) : List Nat :=
  match trigger with
  | some t => List.replicate (t.rest.countP (·.queue = r)) t.event
  | none => []

namespace System

variable (l : Layout)

/-- The events from `q` that were pushed at `r`. -/
def arrived (s : System) (q r : Nat) : List Nat :=
  eventsOf s.history q (l.index r) (s.components (l.component r)).pushed

/-- The events from `q` that are about to be pushed at `r`. -/
def flying (s : System) (q r : Nat) : List Nat :=
  eventsOf s.history q (l.index r) (s.components (l.component r)).state.pendingItems

end System

namespace Layout

variable {l : Layout} {q r : Nat}

/-- No two ports have the same place. -/
theorem eq_of_place (hq : q < l.size) (hr : r < l.size) (hc : l.component q = l.component r)
    (hi : l.index q = l.index r) : q = r := by
  have hport : ∀ q (hq : q < l.ports.length), l.port q = l.ports[q] := fun q hq => by
    simp [port, List.getD_eq_getElem?_getD, List.getElem?_eq_getElem hq]
  unfold component at hc
  unfold index at hi
  rw [hport q hq, hport r hr] at hc hi
  have hlen : (l.ports.map fun p => (p.component, p.index)).length = l.ports.length := List.length_map _
  have hq' : q < (l.ports.map fun p => (p.component, p.index)).length := hlen ▸ hq
  have hr' : r < (l.ports.map fun p => (p.component, p.index)).length := hlen ▸ hr
  refine (l.nodup.getElem_inj_iff : _[q] = _[r] ↔ q = r).mp ?_
  simp only [List.getElem_map]
  exact Prod.ext hc hi

/-- A reference that was shared by a port. -/
def IsRef (l : Layout) (c : PortRef) : Prop := c.queue < l.size ∧ c = l.share c.queue

theorem isRef_share (hq : q < l.size) : l.IsRef (l.share q) := ⟨hq, rfl⟩

end Layout

section Events

variable {history : List (Nat × List PortRef)} {q r i n : Nat} {items items' : List Item}

theorem eventsOf_append :
    eventsOf history q i (items ++ items') = eventsOf history q i items ++ eventsOf history q i items' :=
  List.filterMap_append ..

theorem eventOf_eq_some {item : Item} (h : eventOf history q i item = some n) :
    item = .port i n ∧ (history[n]?).map Prod.fst = some q := by
  cases item with
  | port j m =>
    simp only [eventOf, Option.ite_none_right_eq_some] at h
    obtain ⟨⟨rfl, hs⟩, hn⟩ := h
    obtain rfl := Option.some.inj hn
    exact ⟨rfl, hs⟩
  | control ev | message m | timeout id => cases h

theorem mem_eventsOf (h : n ∈ eventsOf history q i items) :
    .port i n ∈ items ∧ (history[n]?).map Prod.fst = some q := by
  obtain ⟨item, hmem, he⟩ := List.mem_filterMap.mp h
  obtain ⟨rfl, hs⟩ := eventOf_eq_some he
  exact ⟨hmem, hs⟩

/-- The items of the other queues do not matter. -/
theorem eventsOf_filter : eventsOf history q i (items.filter (·.source = .port i)) = eventsOf history q i items := by
  unfold eventsOf
  rw [List.filterMap_filter]
  refine List.filterMap_congr fun item _ => ?_
  split
  · rfl
  · rename_i hs
    cases he : eventOf history q i item with
    | none => rfl
    | some n =>
      obtain ⟨rfl, -⟩ := eventOf_eq_some he
      exact absurd (decide_eq_true rfl) hs

/-- An event that is triggered is not one of those there were. -/
theorem eventsOf_history {x : Nat × List PortRef} (h : ∀ j n, .port j n ∈ items → n < history.length) :
    eventsOf (history ++ [x]) q i items = eventsOf history q i items := by
  refine List.filterMap_congr fun item hmem => ?_
  cases item with
  | port j n => rw [eventOf, eventOf, List.getElem?_append_left (h j n hmem)]
  | control ev | message m | timeout id => rfl

theorem owed_append {source : Nat} {channels : List PortRef} :
    owed (history ++ [(source, channels)]) q r =
      owed history q r ++
        if source = q then List.replicate (channels.countP (·.queue = r)) history.length else [] := by
  simp [owed, List.zipIdx_append]

end Events

/-! ## The invariant -/

namespace System

variable {l : Layout} {cfg : Nat → Component.Config} {s s' : System} {q r : Nat}

/-- What a port is owed has arrived, is about to be pushed, or comes later in the trigger under way;
of each port one event at most is about to be pushed, and that where its trigger waits. -/
structure Holds (l : Layout) (cfg : Nat → Component.Config) (s : System) : Prop where
  ran : ∀ c, Reach (Traced.step (cfg c)) (fun _ _ => True) (.initial (l.nPorts c)) (s.components c)
  refs : ∀ q, ∀ c ∈ s.channels l q, l.IsRef c
  trigger : ∀ q t, s.triggers q = some t →
    (s.history[t.event]?).map Prod.fst = some q ∧ ∀ c ∈ t.rest, l.IsRef c
  known : ∀ c i n, .port i n ∈ (s.components c).pushed ++ (s.components c).state.pendingItems → n < s.history.length
  flying : ∀ q r, r < l.size → s.flying l q r = [] ∨
    ∃ t, s.triggers q = some t ∧ t.waiting = some (l.share r) ∧ s.flying l q r = [t.event]
  owed : ∀ q r, r < l.size → s.alive (l.component r) = true →
    (s.components (l.component r)).state.crashed = none →
    PortNetwork.owed s.history q r = s.arrived l q r ++ s.flying l q r ++ toCome (s.triggers q) r

theorem holds_initial : (initial l).Holds l cfg where
  ran _ := .init
  refs q c hc := by
    unfold channels Definition.channels at hc
    cases hs : l.side q <;> (rw [hs] at hc; cases hc)
  trigger _ _ ht := by cases ht
  known _ _ _ hn := by cases hn
  flying _ _ _ := .inl rfl
  owed _ _ _ _ _ := rfl

/-- The connections change. -/
theorem Holds.setDefs {defs : Definitions} (h : s.Holds l cfg)
    (hr : ∀ q, ∀ c ∈ channels l { s with defs } q, l.IsRef c) : Holds l cfg { s with defs } :=
  ⟨h.ran, hr, h.trigger, h.known, h.flying, h.owed⟩

theorem Holds.setDef {d : Definition} (h : s.Holds l cfg) (hr : ∀ c ∈ d.channels (l.side q), l.IsRef c) :
    (s.setDef q d).Holds l cfg := by
  refine h.setDefs fun q' c hc => ?_
  unfold channels at hc
  by_cases hq : q' = q
  · subst hq
    exact hr c (by simpa using hc)
  · exact h.refs q' c (by simpa [channels, hq] using hc)

theorem Holds.setDef_filter {d : Definition} {p : PortRef → Bool} (h : s.Holds l cfg)
    (hd : d.channels (l.side q) = (s.channels l q).filter p) : (s.setDef q d).Holds l cfg :=
  h.setDef fun c hc => h.refs q c (List.mem_of_mem_filter (hd ▸ hc))

theorem Holds.setDef_connect {c : PortRef} (h : s.Holds l cfg) (hc : l.IsRef c) :
    (s.setDef q ((s.defs q).connect c (l.side q))).Holds l cfg := by
  refine h.setDef fun c' hc' => ?_
  rw [Definition.channels_connect] at hc'
  rcases List.mem_append.mp hc' with hmem | hmem
  · exact h.refs q c' hmem
  · rw [List.mem_singleton.mp hmem]
    exact hc

/-- A trigger whose last `enqueue` has pushed the event has none about to be pushed. -/
theorem Holds.flying_nil {t : Trigger} (h : s.Holds l cfg) (ht : s.triggers q = some t)
    (he : s.enqueuing l t = false) (hr : r < l.size) : s.flying l q r = [] := by
  rcases h.flying q r hr with hf | ⟨t', ht', hw, hf⟩
  · exact hf
  obtain rfl := Option.some.inj (ht.symm.trans ht')
  have hmem : t.event ∈ s.flying l q r := by rw [hf]; exact List.mem_singleton_self _
  have hitem := (mem_eventsOf hmem).1
  unfold enqueuing at he
  rw [hw] at he
  exact absurd (List.contains_iff_mem.mpr hitem) (Bool.eq_false_iff.mp he)

theorem Holds.flying_free (h : s.Holds l cfg) (ht : s.triggers q = none) (hr : r < l.size) :
    s.flying l q r = [] := by
  rcases h.flying q r hr with hf | ⟨t, ht', -⟩
  · exact hf
  · rw [ht] at ht'
    cases ht'

/-- The trigger at a port changes while nothing from it is about to be pushed. -/
theorem Holds.setTrigger {t' : Option Trigger} (h : s.Holds l cfg)
    (hf : ∀ r < l.size, s.flying l q r = [])
    (ht : ∀ t ∈ t', (s.history[t.event]?).map Prod.fst = some q ∧ ∀ c ∈ t.rest, l.IsRef c)
    (hc : ∀ r < l.size, s.alive (l.component r) = true → toCome t' r = toCome (s.triggers q) r) :
    (s.setTrigger q t').Holds l cfg where
  ran := h.ran
  refs := h.refs
  trigger q' t hq' := by
    by_cases hq : q' = q
    · subst hq
      exact ht t (by simpa [System.setTrigger] using hq')
    · exact h.trigger q' t (by simpa [System.setTrigger, hq] using hq')
  known := h.known
  flying q' r hr := by
    by_cases hq : q' = q
    · subst hq
      exact .inl (hf r hr)
    · show _ ∨ ∃ t, Function.update s.triggers q t' q' = some t ∧ _
      rw [Function.update_of_ne hq]
      exact h.flying q' r hr
  owed q' r hr ha hk := by
    show PortNetwork.owed s.history q' r =
      s.arrived l q' r ++ s.flying l q' r ++ toCome (Function.update s.triggers q t' q') r
    rw [h.owed q' r hr ha hk]
    by_cases hq : q' = q
    · subst hq
      rw [Function.update_self, hc r hr ha]
    · rw [Function.update_of_ne hq]

theorem toCome_cons {t : Trigger} {c : PortRef} {rest : List PortRef} {waiting : Option PortRef}
    {cleanupRequired : Bool} (hr : t.rest = c :: rest) :
    toCome (some t) r = (if c.queue = r then [t.event] else []) ++
      toCome (some ⟨t.event, rest, waiting, cleanupRequired⟩) r := by
  simp only [toCome, hr, List.countP_cons]
  by_cases hq : c.queue = r
  · simp [hq, List.replicate_succ]
  · simp [hq]

/-! ## The steps -/

section Enqueue

variable {c : PortRef} {t : Traced} {n q' : Nat}

theorem arrived_setComponent {x : Nat} (hp : t.pushed = (s.components x).pushed) :
    (s.setComponent x t).arrived l q r = s.arrived l q r := by
  unfold arrived setComponent
  by_cases hx : l.component r = x
  · simp [hx, hp]
  · simp [hx]

/-- The event that is about to be pushed is one for this port only. -/
theorem flying_setComponent (hc : l.IsRef c) (hn : (s.history[n]?).map Prod.fst = some q) (hr : r < l.size)
    (hp : t.state.pendingItems = .port (l.index c.queue) n :: (s.components c.component).state.pendingItems) :
    (s.setComponent c.component t).flying l q' r =
      (if q' = q ∧ c.queue = r then [n] else []) ++ s.flying l q' r := by
  have hcomp : c.component = l.component c.queue := congrArg PortRef.component hc.2
  unfold flying setComponent
  by_cases hx : l.component r = c.component
  · simp only [hx, Function.update_self, hp, eventsOf, List.filterMap_cons, eventOf, hn, Option.some_inj]
    by_cases hq : c.queue = r
    · subst hq
      by_cases hqq : q = q'
      · simp [hqq]
      · simp [hqq, Ne.symm hqq]
    · have hi : l.index c.queue ≠ l.index r := fun hi =>
        hq (l.eq_of_place hc.1 hr (by rw [← hcomp, hx]) hi)
      simp [hq, hi]
  · have hq : c.queue ≠ r := fun hq => hx (by rw [hcomp, hq])
    simp [hx, hq]

theorem flying_overflow {x : Nat} (hp : t.state.pendingItems = (s.components x).state.pendingItems) :
    (s.setComponent x t).flying l q r = s.flying l q r := by
  unfold flying setComponent
  by_cases hx : l.component r = x
  · simp [hx, hp]
  · simp [hx]

end Enqueue

section SetComponent

variable {x : Nat} {a : Component.Action} {t : Traced}

theorem setComponent_components (c : Nat) :
    (s.setComponent x t).components c = if c = x then t else s.components c :=
  Function.update_apply ..

theorem Holds.ran_setComponent (h : s.Holds l cfg) (hs : (s.components x).step (cfg x) a = some t) (c : Nat) :
    Reach (Traced.step (cfg c)) (fun _ _ => True) (.initial (l.nPorts c)) ((s.setComponent x t).components c) := by
  rw [setComponent_components]
  split
  · rename_i hc
    subst hc
    exact (h.ran _).step trivial hs
  · exact h.ran c

theorem Holds.known_setComponent (h : s.Holds l cfg)
    (ht : ∀ i n, .port i n ∈ t.pushed ++ t.state.pendingItems → n < s.history.length) (c i n : Nat)
    (hn : .port i n ∈ ((s.setComponent x t).components c).pushed ++
      ((s.setComponent x t).components c).state.pendingItems) : n < s.history.length := by
  rw [setComponent_components] at hn
  split at hn
  · exact ht i n hn
  · exact h.known c i n hn

end SetComponent

theorem Holds.enqueue {t : Trigger} {c : PortRef} {rest : List PortRef} {t' : Traced} (h : s.Holds l cfg)
    (ht : s.triggers q = some t) (he : s.enqueuing l t = false) (hrest : t.rest = c :: rest)
    (hs : (s.components c.component).step (cfg c.component)
      (.increment (.port (l.index c.queue) t.event)) = some t') :
    ((s.setComponent c.component t').setTrigger q (some { t with rest, waiting := some c })).Holds l cfg := by
  obtain ⟨hsource, hrefs⟩ := h.trigger q t ht
  have hc : l.IsRef c := hrefs c (by rw [hrest]; exact List.mem_cons_self ..)
  have hnone : ∀ r < l.size, s.flying l q r = [] := fun r hr => h.flying_nil ht he hr
  obtain ⟨st, hst, hst'⟩ := Option.map_eq_some_iff.mp hs
  have hpushed : t'.pushed = (s.components c.component).pushed := by
    rw [← hst']
    exact List.append_nil _
  have hcase : t'.state.pendingItems =
      .port (l.index c.queue) t.event :: (s.components c.component).state.pendingItems ∧
      t'.state.crashed = none ∨ t'.state.pendingItems = (s.components c.component).state.pendingItems ∧
        t'.state.crashed ≠ none := by
    rw [← hst']
    exact Component.State.pendingStep_increment hst
  have hn : t.event < s.history.length := by
    obtain ⟨x, hx, -⟩ := Option.map_eq_some_iff.mp hsource
    exact (List.getElem?_eq_some_iff.mp hx).1
  have hflying : ∀ q' r, r < l.size → q' ≠ q → (s.setComponent c.component t').flying l q' r = s.flying l q' r := by
    intro q' r hr hq
    rcases hcase with ⟨hpend, -⟩ | ⟨hpend, -⟩
    · rw [flying_setComponent hc hsource hr hpend, if_neg fun hqr => hq hqr.1, List.nil_append]
    · exact flying_overflow hpend
  refine ⟨h.ran_setComponent hs, h.refs, fun q' t₁ ht₁ => ?_, h.known_setComponent fun i n hmem => ?_,
    fun q' r hr => ?_, fun q' r hr ha hk => ?_⟩
  · by_cases hq : q' = q
    · subst hq
      have heq : some (Trigger.mk t.event rest (some c) t.cleanupRequired) = some t₁ := by
        simpa [System.setTrigger] using ht₁
      obtain rfl := Option.some.inj heq
      exact ⟨hsource, fun c' hc' => hrefs c' (by rw [hrest]; exact List.mem_cons_of_mem _ hc')⟩
    · exact h.trigger q' t₁ (by simpa [System.setTrigger, System.setComponent, hq] using ht₁)
  · rw [hpushed] at hmem
    rcases hcase with ⟨hpend, -⟩ | ⟨hpend, -⟩
    · rw [hpend] at hmem
      rcases List.mem_append.mp hmem with hm | hm
      · exact h.known _ i n (List.mem_append_left _ hm)
      rcases List.mem_cons.mp hm with heq | hm
      · obtain ⟨-, rfl⟩ := Item.port.inj heq
        exact hn
      · exact h.known _ i n (List.mem_append_right _ hm)
    · rw [hpend] at hmem
      exact h.known _ i n hmem
  · show (s.setComponent c.component t').flying l q' r = [] ∨
      ∃ t₁, Function.update s.triggers q (some { t with rest, waiting := some c }) q' = some t₁ ∧
        t₁.waiting = some (l.share r) ∧ (s.setComponent c.component t').flying l q' r = [t₁.event]
    by_cases hq : q' = q
    · subst hq
      rw [Function.update_self]
      rcases hcase with ⟨hpend, -⟩ | ⟨hpend, -⟩
      · rw [flying_setComponent hc hsource hr hpend, hnone r hr]
        by_cases hqr : c.queue = r
        · subst hqr
          exact .inr ⟨_, rfl, congrArg some hc.2, by simp⟩
        · exact .inl (by simp [hqr])
      · exact .inl ((flying_overflow hpend).trans (hnone r hr))
    · rw [Function.update_of_ne hq, hflying q' r hr hq]
      exact h.flying q' r hr
  · show PortNetwork.owed s.history q' r =
      (s.setComponent c.component t').arrived l q' r ++ (s.setComponent c.component t').flying l q' r ++
        toCome (Function.update s.triggers q (some { t with rest, waiting := some c }) q') r
    have hk' : ((s.setComponent c.component t').components (l.component r)).state.crashed = none := hk
    rw [setComponent_components] at hk'
    have hold : (s.components (l.component r)).state.crashed = none := by
      split at hk'
      · rename_i hx
        rw [hx]
        exact (Component.State.does_of_step hst).1
      · exact hk'
    rw [arrived_setComponent hpushed, h.owed q' r hr ha hold]
    by_cases hq : q' = q
    · subst hq
      have htail : toCome (some t) r = (if c.queue = r then [t.event] else []) ++
          toCome (some { t with rest, waiting := some c }) r := toCome_cons hrest
      rw [Function.update_self, hnone r hr, ht, htail]
      rcases hcase with ⟨hpend, -⟩ | ⟨hpend, hcr⟩
      · rw [flying_setComponent hc hsource hr hpend, hnone r hr]
        simp
      · have hqr : c.queue ≠ r := by
          intro hqr
          have hcomp : l.component r = c.component := by rw [← hqr]; exact (congrArg PortRef.component hc.2).symm
          rw [if_pos hcomp] at hk'
          exact hcr hk'
        rw [flying_overflow hpend, hnone r hr, if_neg hqr]
        simp
    · rw [Function.update_of_ne hq, hflying q' r hr hq]

theorem Holds.advance {t : Trigger} (h : s.Holds l cfg) (ht : s.triggers q = some t)
    (he : s.enqueuing l t = false) (hs : s.advance l cfg q t = some s') : s'.Holds l cfg := by
  obtain ⟨hsource, hrefs⟩ := h.trigger q t ht
  have hnone : ∀ r < l.size, s.flying l q r = [] := fun r hr => h.flying_nil ht he hr
  unfold System.advance at hs
  split at hs
  · rename_i hrest
    have hend : (s.setTrigger q none).Holds l cfg := by
      refine h.setTrigger hnone (fun t' ht' => by cases ht') fun r hr ha => ?_
      rw [ht]
      simp [toCome, hrest]
    obtain rfl := Option.some.inj hs
    split
    · exact hend.setDef_filter Definition.channels_cleanup
    · exact hend
  · rename_i c rest hrest
    split at hs
    · obtain ⟨t', hstep, rfl⟩ := Option.map_eq_some_iff.mp hs
      exact h.enqueue ht he hrest hstep
    · rename_i hlive
      obtain rfl := Option.some.inj hs
      have hc : l.IsRef c := hrefs c (by rw [hrest]; exact List.mem_cons_self ..)
      refine h.setTrigger hnone (fun t' ht' => ?_) fun r hr ha => ?_
      · obtain rfl := Option.some.inj ht'
        exact ⟨hsource, fun c' hc' => hrefs c' (by rw [hrest]; exact List.mem_cons_of_mem _ hc')⟩
      · -- the port of the reference is not alive
        have hqr : c.queue ≠ r := by
          intro hqr
          subst hqr
          refine hlive ?_
          rw [hc.2]
          exact (Bool.and_eq_true _ _).mpr ⟨ha, ha⟩
        have htail : toCome (some t) r = (if c.queue = r then [t.event] else []) ++
            toCome (some ⟨t.event, rest, none, true⟩) r := toCome_cons hrest
        rw [ht, htail, if_neg hqr]
        rfl

theorem Holds.triggered (h : s.Holds l cfg) (hq : s.triggers q = none) :
    ({ s with history := s.history ++ [(q, s.channels l q)] }.setTrigger q
      (some ⟨s.history.length, s.channels l q, none, false⟩)).Holds l cfg := by
  have harrived : ∀ q' i c, eventsOf (s.history ++ [(q, s.channels l q)]) q' i (s.components c).pushed =
      eventsOf s.history q' i (s.components c).pushed := fun q' i c =>
    eventsOf_history fun j n hn => h.known c j n (List.mem_append_left _ hn)
  have hflying : ∀ q' i c, eventsOf (s.history ++ [(q, s.channels l q)]) q' i (s.components c).state.pendingItems =
      eventsOf s.history q' i (s.components c).state.pendingItems := fun q' i c =>
    eventsOf_history fun j n hn => h.known c j n (List.mem_append_right _ hn)
  refine ⟨h.ran, h.refs, fun q' t ht => ?_, fun c i n hn => ?_, fun q' r hr => ?_, fun q' r hr ha hk => ?_⟩
  · by_cases hqq : q' = q
    · subst hqq
      have heq : some (Trigger.mk s.history.length (s.channels l q') none false) = some t := by
        simpa [System.setTrigger] using ht
      obtain rfl := Option.some.inj heq
      exact ⟨by simp [System.setTrigger], h.refs q'⟩
    · obtain ⟨hsource, hrefs⟩ := h.trigger q' t (by simpa [System.setTrigger, hqq] using ht)
      refine ⟨?_, hrefs⟩
      obtain ⟨x, hx, -⟩ := Option.map_eq_some_iff.mp hsource
      have hlt := (List.getElem?_eq_some_iff.mp hx).1
      show ((s.history ++ [(q, s.channels l q)])[t.event]?).map Prod.fst = some q'
      rw [List.getElem?_append_left hlt]
      exact hsource
  · have hlt := h.known c i n hn
    show n < (s.history ++ [(q, s.channels l q)]).length
    rw [List.length_append]
    exact Nat.lt_add_right _ hlt
  · show eventsOf (s.history ++ _) q' _ (s.components _).state.pendingItems = [] ∨
      ∃ t, Function.update s.triggers q _ q' = some t ∧ _ ∧
        eventsOf (s.history ++ _) q' _ (s.components _).state.pendingItems = [t.event]
    rw [hflying]
    by_cases hqq : q' = q
    · subst hqq
      exact .inl (h.flying_free hq hr)
    · rw [Function.update_of_ne hqq]
      exact h.flying q' r hr
  · show PortNetwork.owed (s.history ++ [(q, s.channels l q)]) q' r =
      eventsOf (s.history ++ _) q' _ (s.components _).pushed ++
        eventsOf (s.history ++ _) q' _ (s.components _).state.pendingItems ++
          toCome (Function.update s.triggers q _ q') r
    rw [harrived, hflying, owed_append, h.owed q' r hr ha hk]
    by_cases hqq : q' = q
    · subst hqq
      rw [if_pos rfl, Function.update_self, hq]
      simp [toCome, arrived, System.flying]
    · rw [if_neg (Ne.symm hqq), Function.update_of_ne hqq, List.append_nil]
      rfl

section Move

variable {cfg : Component.Config} {t t' : Traced} {a : Component.Action} {history : List (Nat × List PortRef)}
  {i : Nat}

theorem not_portEvent {n : Nat} (ha : a.isPortEvent = false) : a ≠ .increment (.port i n) := by
  rintro rfl
  cases ha

/-- Where an event at most is about to be pushed, a step pushes it or leaves it. -/
theorem eventsOf_step (ha : a.isPortEvent = false) (hs : t.step cfg a = some t')
    (hone : (eventsOf history q i t.state.pendingItems).length ≤ 1) :
    eventsOf history q i t'.pushed ++ eventsOf history q i t'.state.pendingItems =
        eventsOf history q i t.pushed ++ eventsOf history q i t.state.pendingItems ∧
      (eventsOf history q i t'.state.pendingItems = eventsOf history q i t.state.pendingItems ∨
        eventsOf history q i t'.state.pendingItems = []) := by
  obtain ⟨st, hst, rfl⟩ := Option.map_eq_some_iff.mp hs
  generalize hp : t.state.pushes a = new at *
  cases hp ▸ Component.State.pendingStep_of_step hst with
  | more items hitems hpend =>
    have hnone : eventsOf history q i items = [] :=
      List.eq_nil_iff_forall_not_mem.mpr fun n hn => not_portEvent ha (hitems _ (mem_eventsOf hn).1)
    have hsame : eventsOf history q i st.pendingItems = eventsOf history q i t.state.pendingItems := by
      rw [hpend, eventsOf_append, hnone, List.nil_append]
    exact ⟨by simp [hsame], .inl hsame⟩
  | push before after item hb hpend =>
    have hsplit : eventsOf history q i t.state.pendingItems =
        eventsOf history q i before ++ (eventsOf history q i [item] ++ eventsOf history q i after) := by
      rw [hb, ← List.singleton_append, eventsOf_append, eventsOf_append]
    have hpend' :
        eventsOf history q i st.pendingItems = eventsOf history q i before ++ eventsOf history q i after := by
      rw [hpend, eventsOf_append]
    have hpushed : eventsOf history q i (t.pushed ++ [item]) =
        eventsOf history q i t.pushed ++ eventsOf history q i [item] := eventsOf_append
    rw [hsplit, List.length_append, List.length_append] at hone
    cases hitem : eventsOf history q i [item] with
    | nil =>
      have hsame : eventsOf history q i st.pendingItems = eventsOf history q i t.state.pendingItems := by
        rw [hpend', hsplit, hitem, List.nil_append]
      exact ⟨by rw [hpushed, hitem, hsame, List.append_nil], .inl hsame⟩
    | cons n rest =>
      rw [hitem, List.length_cons] at hone
      have hbefore : eventsOf history q i before = [] := List.length_eq_zero_iff.mp (by omega)
      have hafter : eventsOf history q i after = [] := List.length_eq_zero_iff.mp (by omega)
      refine ⟨?_, .inr (by rw [hpend', hbefore, hafter]; rfl)⟩
      rw [hpushed, hpend', hsplit, hbefore, hafter, hitem]
      simp

theorem known_step (ha : a.isPortEvent = false) (hs : t.step cfg a = some t') {n : Nat}
    (hn : .port i n ∈ t'.pushed ++ t'.state.pendingItems) : .port i n ∈ t.pushed ++ t.state.pendingItems := by
  obtain ⟨st, hst, rfl⟩ := Option.map_eq_some_iff.mp hs
  have hn' : .port i n ∈ (t.pushed ++ t.state.pushes a) ++ st.pendingItems := hn
  generalize hp : t.state.pushes a = new at hn'
  cases hp ▸ Component.State.pendingStep_of_step hst with
  | more items hitems hpend =>
    rw [hpend, List.append_nil] at hn'
    rcases List.mem_append.mp hn' with hm | hm
    · exact List.mem_append_left _ hm
    rcases List.mem_append.mp hm with hm | hm
    · exact (not_portEvent ha (hitems _ hm)).elim
    · exact List.mem_append_right _ hm
  | push before after item hb hpend =>
    rw [hpend] at hn'
    rw [hb]
    simp only [List.mem_append, List.mem_cons, List.not_mem_nil] at hn' ⊢
    tauto

end Move

theorem Holds.component {x : Nat} {a : Component.Action} {t : Traced} (h : s.Holds l cfg)
    (ha : a.isPortEvent = false) (hs : (s.components x).step (cfg x) a = some t) :
    (s.setComponent x t).Holds l cfg := by
  have hmoved : ∀ q r, r < l.size → l.component r = x →
      (eventsOf s.history q (l.index r) t.pushed ++ eventsOf s.history q (l.index r) t.state.pendingItems =
          s.arrived l q r ++ s.flying l q r) ∧
        (eventsOf s.history q (l.index r) t.state.pendingItems = s.flying l q r ∨
          eventsOf s.history q (l.index r) t.state.pendingItems = []) := by
    intro q r hr hx
    subst hx
    refine eventsOf_step ha hs ?_
    show (s.flying l q r).length ≤ 1
    rcases h.flying q r hr with hf | ⟨t₁, -, -, hf⟩
    · simp [hf]
    · simp [hf]
  have hcrashed : (s.components x).state.crashed = none := by
    obtain ⟨st, hst, -⟩ := Option.map_eq_some_iff.mp hs
    exact (Component.State.does_of_step hst).1
  refine ⟨h.ran_setComponent hs, h.refs, h.trigger, h.known_setComponent fun i n hn => ?_, fun q r hr => ?_,
    fun q r hr hal hk => ?_⟩
  · exact h.known x i n (known_step ha hs hn)
  · show eventsOf s.history q (l.index r) ((s.setComponent x t).components (l.component r)).state.pendingItems = [] ∨
      ∃ t₁, s.triggers q = some t₁ ∧ t₁.waiting = some (l.share r) ∧
        eventsOf s.history q (l.index r) ((s.setComponent x t).components (l.component r)).state.pendingItems =
          [t₁.event]
    rw [setComponent_components]
    split
    · rename_i hx
      rcases (hmoved q r hr hx).2 with hf | hf
      · rw [hf]
        exact h.flying q r hr
      · exact .inl hf
    · exact h.flying q r hr
  · show PortNetwork.owed s.history q r =
      eventsOf s.history q (l.index r) ((s.setComponent x t).components (l.component r)).pushed ++
        eventsOf s.history q (l.index r) ((s.setComponent x t).components (l.component r)).state.pendingItems ++
          toCome (s.triggers q) r
    have hk' : ((s.setComponent x t).components (l.component r)).state.crashed = none := hk
    rw [setComponent_components] at hk' ⊢
    split
    · rename_i hx
      rw [(hmoved q r hr hx).1]
      exact h.owed q r hr hal (by rw [hx]; exact hcrashed)
    · rename_i hx
      rw [if_neg hx] at hk'
      exact h.owed q r hr hal hk'

/-! ## Disconnecting a channel -/

theorem mem_channels_provided {defs : Definitions} {id j : Nat} {req c : PortRef} {side : Side}
    (hc : c ∈ (Function.update defs id { defs id with
      provided := ((defs id).provided.disconnectPort req).2 } j).channels side) : c ∈ (defs j).channels side := by
  rw [TwoWayChannel.provided_apply] at hc
  cases side with
  | provided =>
    by_cases hj : j = id
    · simp only [if_pos hj] at hc
      exact List.mem_of_mem_filter hc
    · simpa only [if_neg hj] using hc
  | required => exact hc

theorem mem_channels_required {defs : Definitions} {id j : Nat} {prov c : PortRef} {side : Side}
    (hc : c ∈ (Function.update defs id { defs id with
      required := ((defs id).required.disconnectPort prov).2 } j).channels side) : c ∈ (defs j).channels side := by
  rw [TwoWayChannel.required_apply] at hc
  cases side with
  | provided => exact hc
  | required =>
    by_cases hj : j = id
    · simp only [if_pos hj] at hc
      exact List.mem_of_mem_filter hc
    · simpa only [if_neg hj] using hc

/-- Whatever comes of it, there are no new references. -/
theorem mem_channels_disconnectByRef {ch : TwoWayChannel} {provider requirer : Attempt} {defs : Definitions}
    {side : Side} {c : PortRef}
    (hc : c ∈ (((ch.disconnectByRef provider requirer).run.run defs).2 q).channels side) :
    c ∈ (defs q).channels side := by
  obtain ⟨upgraded, locked⟩ := provider
  obtain ⟨upgraded', locked'⟩ := requirer
  cases upgraded with
  | false =>
    cases upgraded' with
    | false => exact hc
    | true =>
      cases locked' with
      | some e => exact hc
      | none => exact mem_channels_required hc
  | true =>
    cases locked with
    | some e => exact hc
    | none =>
      cases upgraded' with
      | false => exact mem_channels_provided hc
      | true =>
        cases locked' with
        | some e => exact mem_channels_provided hc
        | none => exact mem_channels_provided (mem_channels_required hc)

/-! ## Any step -/

theorem alive_of_dealloc {c x : Nat} (h : Function.update s.alive c false x = true) : s.alive x = true := by
  by_cases hx : x = c
  · rw [hx, Function.update_self] at h
    cases h
  · rwa [Function.update_of_ne hx] at h

theorem Holds.step {a : Action} (h : s.Holds l cfg) (hs : s.step l cfg a = some s') : s'.Holds l cfg := by
  cases a with
  | component x a =>
    simp only [System.step] at hs
    split at hs
    · rename_i hx
      obtain ⟨t, hstep, rfl⟩ := Option.map_eq_some_iff.mp hs
      exact h.component hx.2 hstep
    · cases hs
  | trigger q =>
    simp only [System.step] at hs
    split at hs
    · rename_i hq
      obtain rfl := Option.some.inj hs
      exact h.triggered hq.2.2
    · cases hs
  | advance q =>
    simp only [System.step] at hs
    split at hs
    · rename_i t ht
      split at hs
      · cases hs
      · rename_i he
        exact h.advance ht (Bool.eq_false_iff.mpr he) hs
    · cases hs
  | biconnect p r =>
    simp only [System.step] at hs
    split at hs
    · rename_i hfit
      obtain rfl := Option.some.inj hs
      exact (h.setDef_connect (l.isRef_share hfit.1.2.1)).setDef_connect (l.isRef_share hfit.1.1)
    · cases hs
  | connect q r =>
    simp only [System.step] at hs
    split at hs
    · rename_i hfit
      obtain rfl := Option.some.inj hs
      exact h.setDef_connect (l.isRef_share hfit.1.2.1)
    · cases hs
  | disconnectPort q r =>
    simp only [System.step] at hs
    split at hs
    · obtain rfl := Option.some.inj hs
      exact h.setDef_filter Definition.channels_disconnectPort
    · cases hs
  | disconnectComponent q c =>
    simp only [System.step] at hs
    split at hs
    · obtain rfl := Option.some.inj hs
      exact h.setDef_filter Definition.channels_disconnectComponent
    · cases hs
  | disconnect p r provider requirer =>
    simp only [System.step] at hs
    split at hs
    · obtain rfl := Option.some.inj hs
      exact h.setDefs fun q c hc => h.refs q c (mem_channels_disconnectByRef hc)
    · cases hs
  | dealloc c =>
    simp only [System.step] at hs
    split at hs
    · obtain rfl := Option.some.inj hs
      exact ⟨h.ran, h.refs, h.trigger, h.known, h.flying, fun q r hr ha hk => h.owed q r hr (alive_of_dealloc ha) hk⟩
    · cases hs

theorem holds_reach (h : Reach (step l cfg) (fun _ _ => True) (initial l) s) : s.Holds l cfg :=
  h.invariant (Holds l cfg) holds_initial fun hi _ hs => hi.step hs

end System

/-- In every run, however the components execute and triggers, connections and deallocations are
mixed: what a port of a live component is owed by another port, an event for each connection that
port had to it when it triggered the event, was taken by the component, stands in the queue of the
port, is about to be pushed or is still to be enqueued, in this order and each once; and the handler
ran for all that was taken. Once the trigger is over and the component at rest, all that is owed was
handled if the component can run. -/
theorem events_handled {l : Layout} {cfg : Nat → Component.Config} {s : System} {q r : Nat}
    (h : Reach (System.step l cfg) (fun _ _ => True) (.initial l) s) (hr : r < l.size)
    (ha : s.alive (l.component r) = true) (hc : (s.components (l.component r)).state.crashed = none) :
    owed s.history q r =
        eventsOf s.history q (l.index r) (s.components (l.component r)).taken ++
          eventsOf s.history q (l.index r) ((s.components (l.component r)).state.queueOf (.port (l.index r))) ++
          s.flying l q r ++ toCome (s.triggers q) r ∧
      (s.components (l.component r)).state.log.filter Obs.isDelivery =
        (s.components (l.component r)).taken.filterMap Item.delivery? ∧
      (s.triggers q = none → (s.components (l.component r)).state.AtRest →
        (s.components (l.component r)).state.Runnable →
        eventsOf s.history q (l.index r) (s.components (l.component r)).taken = owed s.history q r) := by
  have hi := System.holds_reach h
  have hran := hi.ran (l.component r)
  obtain ⟨hord, hdel⟩ := Traced.ordered hran
  have hpushed : s.arrived l q r = eventsOf s.history q (l.index r) (s.components (l.component r)).taken ++
      eventsOf s.history q (l.index r) ((s.components (l.component r)).state.queueOf (.port (l.index r))) := by
    rw [System.arrived, ← eventsOf_filter, hord (.port (l.index r)), eventsOf_append, eventsOf_filter]
  have howed := hi.owed q r hr ha hc
  rw [hpushed] at howed
  refine ⟨howed, hdel, fun ht hrest hrun => ?_⟩
  rw [howed, Component.State.drained (Traced.reach_state hran) hrest hrun, hi.flying_free ht hr, ht]
  simp [toCome, eventsOf]

/-- A provided and a required port of two components. -/
def twoPorts : Layout := ⟨[⟨0, 0, .provided⟩, ⟨1, 0, .required⟩], by decide, by decide⟩

/-- The ports are connected, the second component is started, and two events are triggered. -/
def triggerTwice : List Action :=
  [.biconnect 0 1, .component 1 (.increment (.control .start)), .component 1 (.push 0),
    .component 1 (.finishEnqueue 0), .trigger 0, .advance 0, .component 1 (.push 0), .advance 0, .trigger 0, .advance 0,
    .component 1 (.finishEnqueue 1), .component 1 (.push 0), .component 1 (.finishEnqueue 0), .advance 0] ++
  [Component.Action.dispatch, .load, .acquire, .exec, .exec, .exec, .returns .ok, .exec, .exec, .exec, .exec, .exec,
    .exec, .returns .ok, .exec, .exec, .returns .ok, .exec, .exec, .exec, .exec, .exec, .exec, .act 0].map (.component 1)

theorem events_handled_two :
    ∃ h : (runActions (System.step twoPorts fun _ => ⟨10, 5, true⟩) (.initial twoPorts) triggerTwice).isSome,
      owed (Option.get _ h).history 0 1 = [0, 1] ∧
      eventsOf (Option.get _ h).history 0 0 ((Option.get _ h).components 1).taken = [0, 1] := by
  have hreach : Reach (System.step twoPorts fun _ => ⟨10, 5, true⟩) (fun _ _ => True) (.initial twoPorts) _ :=
    Reach.of_run triggerTwice (by decide) (runMeets_true _ _)
  obtain ⟨-, -, hall⟩ := events_handled hreach (q := 0) (r := 1) (by decide) (by decide) (by decide)
  exact ⟨by decide, by decide, (hall (by decide) (by decide) (.inl (by decide))).trans (by decide)⟩

/-! ## Both ends of a connection -/

/-- The connections of one port to another. -/
def System.links (l : Layout) (s : System) (q r : Nat) : Nat := (s.channels l q).countP (·.queue = r)

/-- Connections are made and removed at both ends: a channel that is disconnected is not torn. -/
def TwoSided (l : Layout) (s : System) : Action → Prop
  | .connect _ _ => False
  | .disconnectPort _ _ => False
  | .disconnectComponent _ _ => False
  | .disconnect p r provider requirer =>
    ¬ TwoWayChannel.Torn ⟨p, r, l.share p, l.share r⟩ ⟨s.alive (l.component p), provider⟩
      ⟨s.alive (l.component r), requirer⟩ s.defs
  | _ => True

instance (l : Layout) (s : System) : (a : Action) → Decidable (TwoSided l s a)
  | .connect _ _ => .isFalse id
  | .disconnectPort _ _ => .isFalse id
  | .disconnectComponent _ _ => .isFalse id
  | .disconnect _ _ _ _ => inferInstanceAs (Decidable (¬ (_ = _ ∧ _ = _ ∧ _ = _ ∧ _ ≠ none)))
  | .component _ _ => .isTrue trivial
  | .trigger _ => .isTrue trivial
  | .advance _ => .isTrue trivial
  | .biconnect _ _ => .isTrue trivial
  | .dealloc _ => .isTrue trivial

namespace System

variable {l : Layout} {cfg : Nat → Component.Config} {s s' : System} {p q r : Nat}

/-- Live ports that are provided and required have each other equally often. -/
def Agrees (l : Layout) (s : System) : Prop :=
  ∀ p r, p < l.size → r < l.size → l.side p = .provided → l.side r = .required →
    s.alive (l.component p) = true → s.alive (l.component r) = true → s.links l p r = s.links l r p

theorem links_setDef {d : Definition} : (s.setDef q d).links l p r =
    if p = q then (d.channels (l.side p)).countP (·.queue = r) else s.links l p r := by
  unfold links channels setDef
  by_cases hp : p = q
  · subst hp
    simp
  · simp [hp]

theorem links_connect {c : PortRef} : (s.setDef q ((s.defs q).connect c (l.side q))).links l p r =
    s.links l p r + if p = q ∧ c.queue = r then 1 else 0 := by
  rw [links_setDef]
  by_cases hp : p = q
  · subst hp
    rw [if_pos rfl, Definition.channels_connect, List.countP_append, List.countP_singleton]
    simp [links, channels]
  · simp [hp]

theorem countP_without {c : PortRef} {channels : List PortRef} :
    (channels.filter fun other => !c.eq other).countP (·.queue = r) =
      if c.queue = r then 0 else channels.countP (·.queue = r) := by
  rw [List.countP_filter]
  by_cases hc : c.queue = r
  · rw [if_pos hc, List.countP_eq_zero]
    intro a _
    simp only [PortRef.eq, Bool.and_eq_true, decide_eq_true_eq, Bool.not_eq_true', beq_eq_false_iff_ne]
    omega
  · rw [if_neg hc]
    refine List.countP_congr fun a _ => ?_
    simp only [PortRef.eq, Bool.and_eq_true, decide_eq_true_eq, Bool.not_eq_true', beq_eq_false_iff_ne]
    omega

/-- A live connection is kept. -/
theorem links_cleanup (h : s.Holds l cfg) (hr : s.alive (l.component r) = true) :
    (s.setDef q ((s.defs q).cleanup (s.living l) (l.side q))).links l p r = s.links l p r := by
  rw [links_setDef]
  split
  · rename_i hp
    subst hp
    rw [Definition.channels_cleanup, List.countP_filter]
    refine List.countP_congr fun c hc => ?_
    simp only [Bool.and_eq_true, decide_eq_true_eq, and_iff_left_iff_imp]
    intro hq
    have hshare := (h.refs p c hc).2
    rw [hshare, hq]
    exact (Bool.and_eq_true _ _).mpr ⟨hr, hr⟩
  · rfl

/-- A channel that is not torn is removed at both ends, if they live. -/
theorem links_disconnect {p₀ r₀ : Nat} {provider requirer : Option TryLockError} (hp : l.side p = .provided)
    (hr : l.side r = .required) (hlp : s.alive (l.component p) = true) (hlr : s.alive (l.component r) = true)
    (hok : TwoSided l s (.disconnect p₀ r₀ provider requirer)) (hagree : s.links l p r = s.links l r p) :
    let ch : TwoWayChannel := ⟨p₀, r₀, l.share p₀, l.share r₀⟩
    let s' : System := { s with defs := ((ch.disconnectByRef ⟨s.alive (l.component p₀), provider⟩
      ⟨s.alive (l.component r₀), requirer⟩).run.run s.defs).2 }
    s'.links l p r = s'.links l r p := by
  intro ch s'
  have hall := (ch.allOrNothing_iff ⟨s.alive (l.component p₀), provider⟩ ⟨s.alive (l.component r₀), requirer⟩
    s.defs).mpr hok
  unfold TwoWayChannel.AllOrNothing at hall
  split at hall
  · rename_i defs' heq
    have hdefs : s'.defs = defs' := congrArg Prod.snd heq
    have hprov : s'.links l p r = if p = p₀ ∧ r₀ = r then 0 else s.links l p r := by
      unfold links channels
      rw [hdefs, hall, hp]
      show List.countP _ (ite _ _ _ : ProvidedPort).common.requireChannels = _
      by_cases hpp : p = p₀
      · subst hpp
        rw [if_pos ⟨hlp, rfl⟩]
        simp only [true_and]
        exact countP_without
      · rw [if_neg (fun hpp' => hpp hpp'.2), if_neg (fun hpp' => hpp hpp'.1)]
        rfl
    have hreq : s'.links l r p = if r = r₀ ∧ p₀ = p then 0 else s.links l r p := by
      unfold links channels
      rw [hdefs, hall, hr]
      show List.countP _ (ite _ _ _ : RequiredPort).common.provideChannels = _
      by_cases hrr : r = r₀
      · subst hrr
        rw [if_pos ⟨hlr, rfl⟩]
        simp only [true_and]
        exact countP_without
      · rw [if_neg (fun hrr' => hrr hrr'.2), if_neg (fun hrr' => hrr hrr'.1)]
        rfl
    have hboth : (p = p₀ ∧ r₀ = r) ↔ (r = r₀ ∧ p₀ = p) := by omega
    simp only [hprov, hreq, hagree, hboth]
  · rename_i e defs' heq
    have hdefs : s'.defs = s.defs := (congrArg Prod.snd heq).trans hall
    unfold links channels at hagree ⊢
    rw [hdefs]
    exact hagree

theorem Agrees.cleanup (h : s.Agrees l) (hi : s.Holds l cfg) :
    (s.setDef q ((s.defs q).cleanup (s.living l) (l.side q))).Agrees l := by
  intro p r hp hr hsp hsr hlp hlr
  rw [links_cleanup hi hlr, links_cleanup hi hlp]
  exact h p r hp hr hsp hsr hlp hlr

theorem Agrees.biconnect (h : s.Agrees l) (p₀ r₀ : Nat) :
    let s₁ := s.setDef p₀ ((s.defs p₀).connect (l.share r₀) (l.side p₀))
    (s₁.setDef r₀ ((s₁.defs r₀).connect (l.share p₀) (l.side r₀))).Agrees l := by
  intro s₁ p r hp hr hsp hsr hlp hlr
  rw [links_connect, links_connect, links_connect, links_connect, h p r hp hr hsp hsr hlp hlr]
  show _ + (if p = p₀ ∧ r₀ = r then 1 else 0) + (if p = r₀ ∧ p₀ = r then 1 else 0) =
    _ + (if r = p₀ ∧ r₀ = p then 1 else 0) + if r = r₀ ∧ p₀ = p then 1 else 0
  have h₁ : (p = p₀ ∧ r₀ = r) ↔ (r = r₀ ∧ p₀ = p) := by omega
  have h₂ : (p = r₀ ∧ p₀ = r) ↔ (r = p₀ ∧ r₀ = p) := by omega
  simp only [h₁, h₂]
  omega

theorem Agrees.advance {t : Trigger} (h : s.Agrees l) (hi : s.Holds l cfg) (hs : s.advance l cfg q t = some s') :
    s'.Agrees l := by
  unfold System.advance at hs
  split at hs
  · obtain rfl := Option.some.inj hs
    split
    · exact h.cleanup hi
    · exact h
  · split at hs
    · obtain ⟨t', hstep, rfl⟩ := Option.map_eq_some_iff.mp hs
      exact h
    · obtain rfl := Option.some.inj hs
      exact h

theorem Agrees.step {a : Action} (h : s.Agrees l) (hi : s.Holds l cfg) (hok : TwoSided l s a)
    (hs : s.step l cfg a = some s') : s'.Agrees l := by
  cases a with
  | component x a =>
    simp only [System.step] at hs
    split at hs
    · obtain ⟨t, hstep, rfl⟩ := Option.map_eq_some_iff.mp hs
      exact h
    · cases hs
  | trigger q =>
    simp only [System.step] at hs
    split at hs
    · obtain rfl := Option.some.inj hs
      exact h
    · cases hs
  | advance q =>
    simp only [System.step] at hs
    split at hs
    · split at hs
      · cases hs
      · exact h.advance hi hs
    · cases hs
  | biconnect p₀ r₀ =>
    simp only [System.step] at hs
    split at hs
    · obtain rfl := Option.some.inj hs
      exact h.biconnect p₀ r₀
    · cases hs
  | connect q r => exact hok.elim
  | disconnectPort q r => exact hok.elim
  | disconnectComponent q c => exact hok.elim
  | disconnect p₀ r₀ provider requirer =>
    simp only [System.step] at hs
    split at hs
    · obtain rfl := Option.some.inj hs
      intro p r hp hr hsp hsr hlp hlr
      exact links_disconnect hsp hsr hlp hlr hok (h p r hp hr hsp hsr hlp hlr)
    · cases hs
  | dealloc c =>
    simp only [System.step] at hs
    split at hs
    · obtain rfl := Option.some.inj hs
      intro p r hp hr hsp hsr hlp hlr
      exact h p r hp hr hsp hsr (alive_of_dealloc hlp) (alive_of_dealloc hlr)
    · cases hs

end System

/-- In every run in which connections are made and removed at both ends, with triggers that clean up
and components that are deallocated in between: two live ports, one provided and the other required,
have each other equally often, so events go both ways or not at all. -/
theorem ends_agree {l : Layout} {cfg : Nat → Component.Config} {s : System} {p r : Nat}
    (h : Reach (System.step l cfg) (TwoSided l) (.initial l) s) (hp : p < l.size) (hr : r < l.size)
    (hsp : l.side p = .provided) (hsr : l.side r = .required) (hlp : s.alive (l.component p) = true)
    (hlr : s.alive (l.component r) = true) : s.links l p r = s.links l r p := by
  have hinit : (System.initial l).Agrees l := by
    intro p r _ _ hsp hsr _ _
    unfold System.links System.channels
    rw [hsp, hsr]
    rfl
  have hi : s.Holds l cfg ∧ s.Agrees l := h.invariant (fun s => s.Holds l cfg ∧ s.Agrees l)
    ⟨System.holds_initial, hinit⟩ fun hi hok hs => ⟨hi.1.step hs, hi.2.step hi.1 hok hs⟩
  exact hi.2 p r hp hr hsp hsr hlp hlr

/-- The ports are connected, disconnected and connected again, twice. -/
def reconnect : List Action :=
  [.biconnect 0 1, .trigger 0, .advance 0, .disconnect 0 1 (some .wouldBlock) none, .component 1 (.push 0), .advance 0,
    .disconnect 0 1 none none, .biconnect 0 1, .biconnect 0 1]

theorem ends_agree_twice :
    ∃ h : (runActions (System.step twoPorts fun _ => ⟨10, 5, true⟩) (.initial twoPorts) reconnect).isSome,
      (Option.get _ h).links twoPorts 0 1 = 2 ∧ (Option.get _ h).links twoPorts 1 0 = 2 := by
  have hreach : Reach (System.step twoPorts fun _ => ⟨10, 5, true⟩) (TwoSided twoPorts) (.initial twoPorts) _ :=
    Reach.of_run reconnect (by decide) (by decide)
  refine ⟨by decide, by decide, ?_⟩
  rw [← ends_agree hreach (p := 0) (r := 1) (by decide) (by decide) (by decide) (by decide) (by decide) (by decide)]
  decide

end PortNetwork

end Kompact
