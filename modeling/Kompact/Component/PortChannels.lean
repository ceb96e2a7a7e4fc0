import Kompact.Utils.IterExtras
import Mathlib.Logic.Function.Basic

/-!
# Connections of ports

A port keeps references to the ports it is connected to. An event that is
triggered is put onto the queue of each of them, with a clone of it for all
but the last; a reference whose component or queue was deallocated is dropped
afterwards. References are equal if their queues are.

`enqueue` adds to the work of a component, pushes the event and schedules the
component if so decided, which `Component.Execute` has as steps of an enqueuer.
Here `World.enqueued` records the calls, and `World.queue` is what they push.
A clone of an event is the same value.

`channels_meet_iff` says what triggering and disconnecting do to the lists, and
when `TwoWayChannel::disconnect_by_ref` does all or nothing: it changes the
list of the provider before it tries the lock of the requirer.
-/

namespace Kompact.Ports

/-- A `ProvidedRef` or a `RequiredRef`. -/
structure PortRef where
  component : Nat
  queue : Nat
  deriving DecidableEq, Repr

/-- The components and queues that are still allocated. -/
structure Alive where
  component : Nat → Bool
  queue : Nat → Bool

/-- The queues of the ports, and the events that were enqueued, with the references used. -/
structure World (E : Type) where
  queue : Nat → List E
  enqueued : List (PortRef × E)

variable {E : Type}

namespace PortRef

/-- `PartialEq`: only the queues are compared. -/
def eq (a b : PortRef) : Bool := a.queue == b.queue

def isLive (alive : Alive) (c : PortRef) : Bool := alive.component c.component && alive.queue c.queue

/-- Returns whether the port is deallocated. -/
def enqueue (alive : Alive) (c : PortRef) (event : E) (w : World E) : Bool × World E :=
  match alive.queue c.queue, alive.component c.component with
  | true, true =>
    (false, {
      queue := Function.update w.queue c.queue (w.queue c.queue ++ [event])
      enqueued := w.enqueued ++ [(c, event)] })
  | _, _ => (true, w)

end PortRef

structure CommonPortData where
  provideChannels : List PortRef
  requireChannels : List PortRef
  deriving DecidableEq, Repr

def CommonPortData.cleanup (alive : Alive) (common : CommonPortData) : CommonPortData where
  provideChannels := common.provideChannels.filter (·.isLive alive)
  requireChannels := common.requireChannels.filter (·.isLive alive)

/-- The closure of both `trigger` methods, with its `cleanup_required`. -/
def enqueueOne (alive : Alive) (state : Bool × World E) (c : PortRef) (event : E) : Bool × World E :=
  let (gone, w) := c.enqueue alive event state.2
  (state.1 || gone, w)

/-- The loop of both `trigger` methods. -/
def triggerAll (alive : Alive) (channels : List PortRef) (event : E) (w : World E) : Panics (Bool × World E) :=
  IterExtras.forEachWith id (enqueueOne alive) channels event (false, w)

/-- `retain` in both `disconnect_port` methods; returns `found_match`. -/
def retainOthers (c : PortRef) (channels : List PortRef) : Bool × List PortRef :=
  channels.foldl
    (fun (foundMatch, kept) other =>
      let matches' := c.eq other
      (foundMatch || matches', if matches' then kept else kept ++ [other]))
    (false, [])

structure ProvidedPort where
  common : CommonPortData
  deriving DecidableEq, Repr

namespace ProvidedPort

def trigger (alive : Alive) (event : E) (port : ProvidedPort) (w : World E) : Panics (ProvidedPort × World E) := do
  let (cleanupRequired, w) ← triggerAll alive port.common.requireChannels event w
  .ok (if cleanupRequired then { port with common := port.common.cleanup alive } else port, w)

def connect (c : PortRef) (port : ProvidedPort) : ProvidedPort :=
  { port with common := { port.common with requireChannels := port.common.requireChannels ++ [c] } }

def disconnectPort (c : PortRef) (port : ProvidedPort) : Bool × ProvidedPort :=
  let (foundMatch, requireChannels) := retainOthers c port.common.requireChannels
  (foundMatch, { port with common := { port.common with requireChannels } })

end ProvidedPort

structure RequiredPort where
  common : CommonPortData
  deriving DecidableEq, Repr

namespace RequiredPort

def trigger (alive : Alive) (event : E) (port : RequiredPort) (w : World E) : Panics (RequiredPort × World E) := do
  let (cleanupRequired, w) ← triggerAll alive port.common.provideChannels event w
  .ok (if cleanupRequired then { port with common := port.common.cleanup alive } else port, w)

def connect (c : PortRef) (port : RequiredPort) : RequiredPort :=
  { port with common := { port.common with provideChannels := port.common.provideChannels ++ [c] } }

def disconnectPort (c : PortRef) (port : RequiredPort) : Bool × RequiredPort :=
  let (foundMatch, provideChannels) := retainOthers c port.common.provideChannels
  (foundMatch, { port with common := { port.common with provideChannels } })

end RequiredPort

/-! ## Channels -/

inductive TryLockError where
  | poisoned
  | wouldBlock
  deriving DecidableEq, Repr

/-- The ports of a component, of one port type. -/
structure Definition where
  provided : ProvidedPort
  required : RequiredPort
  deriving DecidableEq, Repr

/-- An attempt to reach a component: whether it still exists, and why its lock
cannot be had, if so. -/
structure Attempt where
  upgraded : Bool
  locked : Option TryLockError
  deriving DecidableEq, Repr

/-- All components. -/
abbrev Definitions := Nat → Definition

abbrev Disconnects := ExceptT TryLockError (StateM Definitions)

def Attempt.tryLock (a : Attempt) : Disconnects Unit :=
  match a.locked with
  | some e => throw e
  | none => pure ()

/-- `ProvideRef::disconnect` of a component. -/
def disconnectProvided (id : Nat) (req : PortRef) : Disconnects Unit :=
  modify fun defs =>
    Function.update defs id { defs id with provided := ((defs id).provided.disconnectPort req).2 }

/-- `RequireRef::disconnect` of a component. -/
def disconnectRequired (id : Nat) (prov : PortRef) : Disconnects Unit :=
  modify fun defs =>
    Function.update defs id { defs id with required := ((defs id).required.disconnectPort prov).2 }

structure TwoWayChannel where
  provider : Nat
  requirer : Nat
  providedRef : PortRef
  requiredRef : PortRef
  deriving DecidableEq, Repr

/-- The two components are reached one after the other, which may be the same
one; the first lock is released before the second is tried. -/
def TwoWayChannel.disconnectByRef (ch : TwoWayChannel) (provider requirer : Attempt) : Disconnects Unit := do
  if provider.upgraded then
    provider.tryLock
    disconnectProvided ch.provider ch.requiredRef
  if requirer.upgraded then
    requirer.tryLock
    disconnectRequired ch.requirer ch.providedRef

/-! ## What they do -/

/-- The event is enqueued once for each live entry, in order. -/
structure Triggered (alive : Alive) (event : E) (channels : List PortRef) (w w' : World E) : Prop where
  enqueued : w'.enqueued = w.enqueued ++ (channels.filter (·.isLive alive)).map fun c => (c, event)
  queue (q : Nat) : w'.queue q =
    w.queue q ++ ((channels.filter (·.isLive alive)).filter fun c => c.queue == q).map fun _ => event

theorem enqueueOne_dead {alive : Alive} {c : PortRef} (h : c.isLive alive = false) (event : E) (gone : Bool)
    (w : World E) : enqueueOne alive (gone, w) c event = (true, w) := by
  unfold PortRef.isLive at h
  unfold enqueueOne PortRef.enqueue
  cases hq : alive.queue c.queue with
  | true => simp_all
  | false => simp

theorem enqueueOne_live {alive : Alive} {c : PortRef} (h : c.isLive alive = true) (event : E) (gone : Bool)
    (w : World E) :
    enqueueOne alive (gone, w) c event = (gone, {
      queue := Function.update w.queue c.queue (w.queue c.queue ++ [event])
      enqueued := w.enqueued ++ [(c, event)] }) := by
  obtain ⟨hc, hq⟩ := (Bool.and_eq_true _ _).mp h
  simp [enqueueOne, PortRef.enqueue, hc, hq]

theorem foldl_enqueueOne (alive : Alive) (channels : List PortRef) (event : E) (gone : Bool) (w : World E) :
    ∃ w', channels.foldl (fun s c => enqueueOne alive s c event) (gone, w) =
        (gone || !channels.all (·.isLive alive), w') ∧ Triggered alive event channels w w' := by
  induction channels generalizing gone w with
  | nil => exact ⟨w, by simp, by simp, fun q => by simp⟩
  | cons c channels ih =>
    rw [List.foldl_cons]
    cases hc : c.isLive alive with
    | false =>
      obtain ⟨w', heq, h⟩ := ih true w
      rw [enqueueOne_dead hc, heq]
      refine ⟨w', ?_, ?_, fun q => ?_⟩
      · simp [hc]
      · simpa [hc] using h.enqueued
      · simpa [hc] using h.queue q
    | true =>
      obtain ⟨w', heq, h⟩ := ih gone {
        queue := Function.update w.queue c.queue (w.queue c.queue ++ [event])
        enqueued := w.enqueued ++ [(c, event)] }
      rw [enqueueOne_live hc, heq]
      refine ⟨w', ?_, ?_, fun q => ?_⟩
      · simp [hc]
      · simpa [hc] using h.enqueued
      · rw [h.queue q]
        by_cases hq : c.queue = q
        · subst hq
          simp [hc]
        · simp [hc, hq, Function.update_of_ne (Ne.symm hq)]

theorem triggerAll_spec (alive : Alive) (channels : List PortRef) (event : E) (w : World E) :
    ∃ w', triggerAll alive channels event w = .ok (!channels.all (·.isLive alive), w') ∧
      Triggered alive event channels w w' := by
  unfold triggerAll
  rw [IterExtras.forEachWith_eq, id, IterExtras.given_self, List.foldl_map]
  obtain ⟨w', heq, h⟩ := foldl_enqueueOne alive channels event false w
  exact ⟨w', by rw [heq, Bool.false_or], h⟩

/-- Without deallocated entries there is nothing to clean up. -/
theorem filter_live {alive : Alive} {channels : List PortRef} (h : channels.all (·.isLive alive) = true) :
    channels.filter (·.isLive alive) = channels :=
  List.filter_eq_self.mpr (List.all_eq_true.mp h)

/-- `retain` keeps the others in order, and knows whether there was one to remove. -/
theorem retainOthers_eq (c : PortRef) (channels : List PortRef) :
    retainOthers c channels = (channels.any c.eq, channels.filter fun other => !c.eq other) := by
  unfold retainOthers
  induction channels using List.reverseRecOn with
  | nil => rfl
  | append_singleton channels other ih =>
    rw [List.foldl_append, ih]
    cases h : c.eq other <;> simp [h]

theorem ProvidedPort.trigger_spec (alive : Alive) (event : E) (port : ProvidedPort) (w : World E) :
    ∃ port' w', port.trigger alive event w = .ok (port', w') ∧
      Triggered alive event port.common.requireChannels w w' ∧
      port'.common.requireChannels = port.common.requireChannels.filter (·.isLive alive) := by
  obtain ⟨w', heq, h⟩ := triggerAll_spec alive port.common.requireChannels event w
  unfold trigger
  rw [heq]
  refine ⟨_, w', rfl, h, ?_⟩
  cases hall : port.common.requireChannels.all (·.isLive alive) with
  | true => exact (filter_live hall).symm
  | false => rfl

theorem RequiredPort.trigger_spec (alive : Alive) (event : E) (port : RequiredPort) (w : World E) :
    ∃ port' w', port.trigger alive event w = .ok (port', w') ∧
      Triggered alive event port.common.provideChannels w w' ∧
      port'.common.provideChannels = port.common.provideChannels.filter (·.isLive alive) := by
  obtain ⟨w', heq, h⟩ := triggerAll_spec alive port.common.provideChannels event w
  unfold trigger
  rw [heq]
  refine ⟨_, w', rfl, h, ?_⟩
  cases hall : port.common.provideChannels.all (·.isLive alive) with
  | true => exact (filter_live hall).symm
  | false => rfl

/-- The port without connections to `c`. -/
def ProvidedPort.without (c : PortRef) (port : ProvidedPort) : ProvidedPort :=
  { port with common := { port.common with
      requireChannels := port.common.requireChannels.filter fun other => !c.eq other } }

def RequiredPort.without (c : PortRef) (port : RequiredPort) : RequiredPort :=
  { port with common := { port.common with
      provideChannels := port.common.provideChannels.filter fun other => !c.eq other } }

theorem ProvidedPort.disconnectPort_eq (c : PortRef) (port : ProvidedPort) :
    port.disconnectPort c = (port.common.requireChannels.any c.eq, port.without c) := by
  simp [disconnectPort, without, retainOthers_eq]

theorem RequiredPort.disconnectPort_eq (c : PortRef) (port : RequiredPort) :
    port.disconnectPort c = (port.common.provideChannels.any c.eq, port.without c) := by
  simp [disconnectPort, without, retainOthers_eq]

/-! ## Disconnecting a channel -/

namespace TwoWayChannel

/-- A component with the channel removed from the ends that still exist. -/
def detached (ch : TwoWayChannel) (provider requirer : Attempt) (id : Nat) (d : Definition) : Definition where
  provided := if provider.upgraded = true ∧ id = ch.provider then d.provided.without ch.requiredRef else d.provided
  required := if requirer.upgraded = true ∧ id = ch.requirer then d.required.without ch.providedRef else d.required

/-- On success the channel is gone from both ends that still exist, and nothing
else; on an error nothing has changed. -/
def AllOrNothing (ch : TwoWayChannel) (provider requirer : Attempt) (defs : Definitions) : Prop :=
  match ch.disconnectByRef provider requirer |>.run.run defs with
  | (.ok (), defs') => defs' = fun id => ch.detached provider requirer id (defs id)
  | (.error _, defs') => defs' = defs

/-- The provider is disconnected and the lock of the requirer cannot be had. -/
def Torn (ch : TwoWayChannel) (provider requirer : Attempt) (defs : Definitions) : Prop :=
  provider = ⟨true, none⟩ ∧ (defs ch.provider).provided.common.requireChannels.any ch.requiredRef.eq = true ∧
    requirer.upgraded = true ∧ requirer.locked ≠ none

theorem provided_apply (defs : Definitions) (id j : Nat) (req : PortRef) :
    Function.update defs id { defs id with provided := ((defs id).provided.disconnectPort req).2 } j =
      { defs j with provided := if j = id then (defs j).provided.without req else (defs j).provided } := by
  by_cases h : j = id
  · subst h
    simp [ProvidedPort.disconnectPort_eq]
  · simp [h]

theorem required_apply (defs : Definitions) (id j : Nat) (prov : PortRef) :
    Function.update defs id { defs id with required := ((defs id).required.disconnectPort prov).2 } j =
      { defs j with required := if j = id then (defs j).required.without prov else (defs j).required } := by
  by_cases h : j = id
  · subst h
    simp [RequiredPort.disconnectPort_eq]
  · simp [h]

theorem provided_unchanged (defs : Definitions) (id : Nat) (req : PortRef) :
    Function.update defs id { defs id with provided := ((defs id).provided.disconnectPort req).2 } = defs ↔
      ¬ (defs id).provided.common.requireChannels.any req.eq = true := by
  rw [Function.update_eq_self_iff, ProvidedPort.disconnectPort_eq]
  obtain ⟨⟨⟨provideChannels, requireChannels⟩⟩, required⟩ := defs id
  simp [ProvidedPort.without, List.filter_eq_self]

/-- All or nothing is done, unless the second lock fails after the first list was changed. -/
theorem allOrNothing_iff (ch : TwoWayChannel) (provider requirer : Attempt) (defs : Definitions) :
    ch.AllOrNothing provider requirer defs ↔ ¬ ch.Torn provider requirer defs := by
  obtain ⟨upgraded, locked⟩ := provider
  obtain ⟨upgraded', locked'⟩ := requirer
  cases upgraded with
  | false =>
    refine iff_of_true ?_ (fun h => nomatch h.1)
    cases upgraded' with
    | false =>
      show defs = fun id => ch.detached _ _ id (defs id)
      simp [detached]
    | true =>
      cases locked' with
      | some e => exact rfl
      | none =>
        refine funext fun id => (required_apply defs ch.requirer id ch.providedRef).trans ?_
        simp [detached]
  | true =>
    cases locked with
    | some e => exact iff_of_true rfl (fun h => nomatch h.1)
    | none =>
      cases upgraded' with
      | false =>
        refine iff_of_true (funext fun id => ?_) (fun h => nomatch h.2.2.1)
        refine (provided_apply defs ch.provider id ch.requiredRef).trans ?_
        simp [detached]
      | true =>
        cases locked' with
        | none =>
          refine iff_of_true (funext fun id => ?_) (fun h => h.2.2.2 rfl)
          refine (required_apply _ ch.requirer id ch.providedRef).trans ?_
          dsimp only
          rw [provided_apply]
          simp [detached]
        | some e =>
          refine (provided_unchanged defs ch.provider ch.requiredRef).trans (not_congr ?_)
          simp [Torn]

end TwoWayChannel

/-- Triggering and disconnecting a port do what they should for every list of
connections. Disconnecting a channel does all or nothing just where the lock of
an existing requirer can be had after a list of the provider was changed. -/
theorem channels_meet_iff (alive : Alive) (event : E) (w : World E) (provided : ProvidedPort)
    (required : RequiredPort) (c : PortRef) (ch : TwoWayChannel) (provider requirer : Attempt) (defs : Definitions) :
    (∃ provided' w', provided.trigger alive event w = .ok (provided', w') ∧
      Triggered alive event provided.common.requireChannels w w' ∧
      provided'.common.requireChannels = provided.common.requireChannels.filter (·.isLive alive)) ∧
    (∃ required' w', required.trigger alive event w = .ok (required', w') ∧
      Triggered alive event required.common.provideChannels w w' ∧
      required'.common.provideChannels = required.common.provideChannels.filter (·.isLive alive)) ∧
    provided.disconnectPort c = (provided.common.requireChannels.any c.eq, provided.without c) ∧
    required.disconnectPort c = (required.common.provideChannels.any c.eq, required.without c) ∧
    (ch.AllOrNothing provider requirer defs ↔ ¬ ch.Torn provider requirer defs) :=
  ⟨provided.trigger_spec alive event w, required.trigger_spec alive event w, provided.disconnectPort_eq c,
    required.disconnectPort_eq c, ch.allOrNothing_iff provider requirer defs⟩

/-- The lock of the requirer is held by its execution: the call fails, and the
provider has lost the connection. -/
theorem disconnectByRef_torn :
    let ch : TwoWayChannel := ⟨1, 2, ⟨1, 10⟩, ⟨2, 20⟩⟩
    let defs : Definitions := fun id =>
      if id = 1 then ⟨⟨⟨[], [⟨2, 20⟩]⟩⟩, ⟨⟨[], []⟩⟩⟩ else ⟨⟨⟨[], []⟩⟩, ⟨⟨[⟨1, 10⟩], []⟩⟩⟩
    ∃ defs', (ch.disconnectByRef ⟨true, none⟩ ⟨true, some .wouldBlock⟩).run.run defs = (.error .wouldBlock, defs') ∧
      (defs 1).provided.common.requireChannels = [⟨2, 20⟩] ∧ (defs' 1).provided.common.requireChannels = [] ∧
      (defs' 2).required.common.provideChannels = [⟨1, 10⟩] ∧
      ¬ ch.AllOrNothing ⟨true, none⟩ ⟨true, some .wouldBlock⟩ defs := by
  refine ⟨_, rfl, rfl, rfl, rfl, fun h => ?_⟩
  have hone := congrArg (fun defs => (defs 1).provided.common.requireChannels.length) h
  exact absurd hone (by decide)

end Kompact.Ports
