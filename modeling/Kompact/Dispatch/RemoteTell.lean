import Kompact.Dispatch.Service
import Kompact.Network.Connections

/-!
# Messages to the actors of other systems

A message to an actor path is serialised, sent over a connection or as a
datagram, and read by the system at the other end, whose network thread looks the
path up in the lookup table and tells the actor it finds. Meanwhile the
dispatcher of that system changes the table.

What came in only grows, and only where it is read (`Grows`). Of what is new,
the messages to a path under which an actor is found are told to this actor
(`deliverAll_messagesTo`). `remote_tell` puts this together with what holds of
the connections and of the table: from its registration on the actor is told
all messages to its path that come in, which are those that were sent.
-/

namespace Kompact

def Connections.Item.message? : Connections.Item → Option NetMessage.Value
  | .control _ => none
  | .message value => some value

namespace RemoteTell

open Connections (Item Connection)

/-- Where messages come in: over a connection, or through the socket of a host. -/
inductive Incoming where
  | tcp (i : Nat)
  | udp (j : Nat)
  deriving DecidableEq, Repr

/-- What an action of the network reads. -/
def reads? : Connections.Action → Option Incoming
  | .readFrame i _ _ => some (.tcp i)
  | .readUdp j _ => some (.udp j)
  | _ => none

/-- The messages that came in. -/
def incoming (net : Connections.World) : Incoming → List NetMessage.Value
  | .tcp i => net.connections[i]?.elim [] fun c => c.received.filterMap Item.message?
  | .udp j => net.hosts[j]?.elim [] fun host => host.receiver.delivered

structure Tell (R : Type) where
  origin : Incoming
  actor : R
  message : NetMessage.Value
  deriving DecidableEq

/-- A network, the systems that receive from it, and who was told what. -/
structure World (R P : Type) where
  net : Connections.World
  services : Nat → LookupService R P
  told : List (Tell R)

inductive Action (R P : Type) where
  /-- Something happens on the network. Of the members of a group, those with the indices `chosen`
  are told what comes in. -/
  | net (a : Connections.Action) (chosen : List Nat)
  | service (j : Nat) (a : LookupService.Action R P)

section Step

variable {R P : Type} (debug implicitRoutes : Bool)

/-- `deliver_net_message`. An actor that was deallocated is not told anything. -/
def deliverNetMessage (d : LookupService R P) (chosen : List Nat) (envelope : NetMessage.Value) :
    Panics (List R) := do
  match ← d.lookup.getByActorPath debug implicitRoutes envelope.1.dst with
  | .ref actor => return [actor].filter (!d.deallocated ·)
  | .group group => return (chosen.filterMap (group.members[·]?)).filter (!d.deallocated ·)
  | .none => return []
  | .err _ => return []

/-- One message after the other. -/
def deliverAll (d : LookupService R P) (chosen : List Nat) :
    List NetMessage.Value → Panics (List (R × NetMessage.Value))
  | [] => .ok []
  | envelope :: envelopes => do
    let actors ← deliverNetMessage debug implicitRoutes d chosen envelope
    let rest ← deliverAll d chosen envelopes
    return actors.map (·, envelope) ++ rest

/-- One step, where `host` says to which system things come. What was read is delivered at once. It
is undefined where the code panics. -/
def World.step [DecidableEq R] (host : Incoming → Nat) (w : World R P) : Action R P → Option (World R P)
  | .net a chosen =>
    (w.net.step debug a).bind fun net =>
      match reads? a with
      | none => some { w with net }
      | some origin =>
        (deliverAll debug implicitRoutes (w.services (host origin)) chosen
          ((incoming net origin).drop (incoming w.net origin).length)).toOption.map fun tells =>
            { w with net, told := w.told ++ tells.map fun (actor, message) => ⟨origin, actor, message⟩ }
  | .service j a =>
    ((w.services j).step debug a).map fun d => { w with services := Function.update w.services j d }

def Action.Legal (w : World R P) : Action R P → Prop
  | .net a _ => a.Legal debug w.net
  | .service _ _ => True

end Step

/-- The entry under the key in the table of system `j` may go. -/
def Action.Withdraws {R P : Type} (j : Nat) (actor : R) (key : LookupKey) : Action R P → Prop
  | .net _ _ => False
  | .service j' a => j' = j ∧ a.Withdraws actor key

/-- The messages to a path. -/
def messagesTo (path : ActorPath) (messages : List NetMessage.Value) : List NetMessage.Value :=
  messages.filter (·.1.dst = path)

/-- Who was told the messages to a path, of those that came in at `origin`. -/
def toldOf {R : Type} (origin : Incoming) (path : ActorPath) (told : List (Tell R)) : List (R × NetMessage.Value) :=
  (told.filter fun t => t.origin = origin ∧ t.message.1.dst = path).map fun t => (t.actor, t.message)

section Grows

variable {net net' : Connections.World} {read : Option Incoming}

/-- What came in stays, and nothing else comes in than from `read`. -/
def Grows (net net' : Connections.World) (read : Option Incoming) : Prop :=
  ∀ origin, incoming net origin <+: incoming net' origin ∧
    (read ≠ some origin → incoming net' origin = incoming net origin)

theorem Grows.of_eq (h : ∀ origin, incoming net' origin = incoming net origin) : Grows net net' read :=
  fun origin => ⟨by rw [h origin], fun _ => h origin⟩

theorem Grows.same (hc : net'.connections = net.connections) (hh : net'.hosts = net.hosts) :
    Grows net net' read :=
  .of_eq fun origin => by cases origin <;> simp only [incoming, hc, hh]

/-- Of one connection more is received. -/
theorem Grows.connection {i : Nat} {c c' : Connection} {items : List Item} (hc : net.connections[i]? = some c)
    (hset : net'.connections = net.connections.set i c') (hh : net'.hosts = net.hosts)
    (hr : c'.received = c.received ++ items) (hread : items = [] ∨ read = some (.tcp i)) : Grows net net' read := by
  intro origin
  cases origin with
  | udp j => exact ⟨by simp only [incoming, hh, List.prefix_rfl], fun _ => by simp only [incoming, hh]⟩
  | tcp i' =>
    by_cases hi : i' = i
    · subst hi
      have hlt : i' < net.connections.length := (List.getElem?_eq_some_iff.mp hc).1
      have hnew : incoming net' (.tcp i') = incoming net (.tcp i') ++ items.filterMap Item.message? := by
        simp only [incoming, hset, List.getElem?_set_self hlt, hc, Option.elim_some, hr, List.filterMap_append]
      refine ⟨hnew ▸ List.prefix_append .., fun hne => ?_⟩
      rw [hnew, hread.resolve_right hne]
      exact List.append_nil _
    · have hsame : incoming net' (.tcp i') = incoming net (.tcp i') := by
        simp only [incoming, hset, List.getElem?_set_ne (Ne.symm hi)]
      exact ⟨by rw [hsame], fun _ => hsame⟩

/-- A host delivers more. -/
theorem Grows.host {j : Nat} {host host' : Connections.Host} {messages : List NetMessage.Value}
    (hj : net.hosts[j]? = some host) (hset : net'.hosts = net.hosts.set j host')
    (hc : net'.connections = net.connections)
    (hr : host'.receiver.delivered = host.receiver.delivered ++ messages) : Grows net net' (some (.udp j)) := by
  intro origin
  cases origin with
  | tcp i => exact ⟨by simp only [incoming, hc, List.prefix_rfl], fun _ => by simp only [incoming, hc]⟩
  | udp j' =>
    by_cases hi : j' = j
    · subst hi
      have hlt : j' < net.hosts.length := (List.getElem?_eq_some_iff.mp hj).1
      refine ⟨⟨messages, ?_⟩, fun hne => absurd rfl hne⟩
      simp only [incoming, hset, List.getElem?_set_self hlt, hj, Option.elim_some, hr]
    · have hsame : incoming net' (.udp j') = incoming net (.udp j') := by
        simp only [incoming, hset, List.getElem?_set_ne (Ne.symm hi)]
      exact ⟨by rw [hsame], fun _ => hsame⟩

theorem Grows.andThen {α : Type} {r : Panics α} {f : α → Connections.World} (h : ∀ a, Grows net (f a) read) :
    Grows net (net.andThen r f) read := by
  cases r with
  | ok a => exact h a
  | error => exact .same rfl rfl

theorem grows_tryDrain {i : Nat} {c c' : Connection} {stream : Draining.Stream} (hc : net.connections[i]? = some c)
    (hr : c'.received = c.received) (h : net.tryDrain i c' stream = some net') : Grows net net' read := by
  obtain ⟨r, -, rfl⟩ := Option.map_eq_some_iff.mp h
  exact .andThen fun d => .connection hc rfl rfl (by rw [List.append_nil]; exact hr) (.inl rfl)

theorem grows_readFrame {debug : Bool} {i : Nat} {c : Connection} {getBuffer : Nat → Receiver → Option BufferChunk}
    {calls : Nat} (hc : net.connections[i]? = some c) (h : net.readFrame debug i c getBuffer calls = some net') :
    Grows net net' (some (.tcp i)) := by
  obtain ⟨r, -, rfl⟩ := Option.map_eq_some_iff.mp h
  have hframe : ∀ item peer, Grows net (net.setConnection i { c with peer, received := c.received ++ [item] })
      (some (.tcp i)) := fun item peer => .connection hc rfl rfl rfl (.inr rfl)
  have hnone : ∀ peer, Grows net (net.setConnection i { c with peer }) (some (.tcp i)) :=
    fun peer => .connection hc rfl rfl (List.append_nil _).symm (.inl rfl)
  refine .andThen fun (res, peer) => ?_
  match res with
  | .ok (some (.data payload)) =>
    refine .andThen fun read => ?_
    cases read with
    | ok envelope => exact hframe _ peer
    | error => exact .same rfl rfl
  | .ok (some (.hello _)) | .ok (some (.start _ _)) | .ok (some .ack) | .ok (some .bye) => exact hframe _ peer
  | .ok none | .error _ => exact hnone peer

/-- The socket is written; nothing comes in. -/
theorem grows_writeUdp {net₁ : Connections.World} {socket : Datagrams.Socket}
    (hc : net₁.connections = net.connections) (hh : net₁.hosts = net.hosts)
    (h : net₁.writeUdp socket = some net') : Grows net net' read := by
  obtain ⟨r, -, rfl⟩ := Option.map_eq_some_iff.mp h
  cases r with
  | ok d => exact .same hc hh
  | error => exact .same hc hh

theorem delivered_decodeMessage {debug : Bool} {w w' : Udp.World} (h : w.decodeMessage debug = .ok w') :
    w'.delivered = w.delivered := by
  obtain ⟨⟨frame, d⟩, -, h⟩ := Panics.bind_eq_ok.mp h
  simp only at h
  split at h
  · obtain ⟨read, -, h⟩ := Panics.bind_eq_ok.mp h
    cases read <;> cases h <;> rfl
  · cases h
    rfl

theorem delivered_prepare {w w' : Udp.World} {offer : Option BufferChunk} (h : w.prepare offer = .ok w') :
    w'.delivered = w.delivered := by
  unfold Udp.World.prepare at h
  split at h
  · cases offer with
    | none => cases h; rfl
    | some buffer =>
      obtain ⟨⟨mem, d, old⟩, -, h⟩ := Panics.bind_eq_ok.mp h
      cases h
      rfl
  · cases h
    rfl

theorem delivered_round {debug : Bool} {w w' : Udp.World} {event : Udp.Event} {round : Udp.Round}
    (h : w.round debug event = .ok (round, w')) : w'.delivered = w.delivered := by
  obtain ⟨w₁, hprepare, h⟩ := Panics.bind_eq_ok.mp h
  refine Eq.trans ?_ (delivered_prepare hprepare)
  split at h
  · cases h
    rfl
  obtain ⟨buf, -, h⟩ := Panics.bind_eq_ok.mp h
  cases buf with
  | none => cases h; rfl
  | some buf =>
    simp only at h
    split at h
    · cases h; rfl
    · obtain ⟨w₂, hdecode, h⟩ := Panics.bind_eq_ok.mp h
      cases h
      exact (delivered_decodeMessage hdecode).trans rfl
    · cases h; rfl
    · cases h; rfl
    · cases h; rfl

theorem delivered_step {debug : Bool} {w w' : Udp.World} {event : Udp.Event} (h : w.step debug event = .ok w') :
    ∃ messages, w'.delivered = w.delivered ++ messages := by
  obtain ⟨⟨round, w₁⟩, hround, h⟩ := Panics.bind_eq_ok.mp h
  have hsame := delivered_round hround
  cases round with
  | again =>
    cases h
    exact ⟨[], by rw [hsame, List.append_nil]⟩
  | interrupted =>
    simp only at h
    split at h <;> cases h
    · exact ⟨_, by rw [Udp.World.deliver, hsame]⟩
    · exact ⟨[], by rw [List.append_nil]; exact hsame⟩
  | returned r =>
    cases h
    exact ⟨_, by rw [Udp.World.deliver, hsame]⟩

theorem grows_readUdp {debug : Bool} {j : Nat} {host : Connections.Host} {event : Udp.Event}
    (hj : net.hosts[j]? = some host) (h : net.readUdp debug j host event = some net') :
    Grows net net' (some (.udp j)) := by
  obtain ⟨arrived, -, -, rfl⟩ := Connections.World.readUdp_cases h
  cases hstep : host.receiver.step debug event with
  | error => exact .same rfl rfl
  | ok receiver =>
    obtain ⟨messages, hmore⟩ := delivered_step hstep
    exact .host hj rfl rfl hmore

/-- What comes in with a step of the network. -/
theorem grows_step {debug : Bool} {a : Connections.Action} (h : net.step debug a = some net') :
    Grows net net' (reads? a) := by
  cases a with
  | connect mem chunk config =>
    obtain rfl := Option.some.inj h
    refine .of_eq fun origin => ?_
    cases origin with
    | udp j => rfl
    | tcp i =>
      simp only [incoming, List.getElem?_append]
      split
      · rfl
      · rename_i hge
        rw [List.getElem?_eq_none (Nat.not_lt.mp hge)]
        cases i - net.connections.length <;> rfl
  | sendTcpMessage i data =>
    obtain ⟨c, hc, rfl⟩ := Option.map_eq_some_iff.mp h
    refine .andThen fun (res, mem, encodeBuffer) => ?_
    cases res with
    | error => exact .same rfl rfl
    | ok frame => exact .connection hc rfl rfl (List.append_nil _).symm (.inl rfl)
  | sendFrame i frame stream =>
    obtain ⟨c, hc, h⟩ := Option.bind_eq_some_iff.mp h
    unfold Connections.World.sendFrame at h
    refine grows_tryDrain hc ?_ h
    rfl
  | tryDrain i stream =>
    obtain ⟨c, hc, h⟩ := Option.bind_eq_some_iff.mp h
    exact grows_tryDrain hc rfl h
  | arrive i arrivals =>
    obtain ⟨c, hc, h⟩ := Option.bind_eq_some_iff.mp h
    unfold Connections.World.arrive at h
    split at h
    · obtain rfl := Option.some.inj h
      exact .connection hc rfl rfl (List.append_nil _).symm (.inl rfl)
    · cases h
  | readFrame i getBuffer calls =>
    obtain ⟨c, hc, h⟩ := Option.bind_eq_some_iff.mp h
    exact grows_readFrame hc h
  | bind address config mem chunk =>
    obtain rfl := Option.some.inj h
    refine .of_eq fun origin => ?_
    cases origin with
    | tcp i => rfl
    | udp j =>
      simp only [incoming, List.getElem?_append]
      split
      · rfl
      · rename_i hge
        rw [List.getElem?_eq_none (Nat.not_lt.mp hge)]
        cases j - net.hosts.length <;> rfl
  | sendUdpMessage address data socket =>
    simp only [Connections.World.step, Connections.World.sendUdpMessage] at h
    split at h
    · exact Option.some.inj h ▸ .same rfl rfl
    · refine grows_writeUdp ?_ ?_ h <;> rfl
    · exact Option.some.inj h ▸ .same rfl rfl
  | writeUdp socket => exact grows_writeUdp rfl rfl h
  | readUdp j event =>
    obtain ⟨host, hj, h⟩ := Option.bind_eq_some_iff.mp h
    exact grows_readUdp hj h

end Grows

/-! ## Who is told -/

section Deliver

variable {R P : Type} {debug implicitRoutes : Bool} {d : LookupService R P} {chosen : List Nat} {path : ActorPath}
  {actor : R}

/-- The messages to the path of an actor are told to this actor, and to nobody else. -/
theorem deliverAll_messagesTo (hfound : d.lookup.getByActorPath debug implicitRoutes path = .ok (.ref actor))
    (halive : d.deallocated actor = false) {messages : List NetMessage.Value} {tells : List (R × NetMessage.Value)}
    (h : deliverAll debug implicitRoutes d chosen messages = .ok tells) :
    tells.filter (·.2.1.dst = path) = (messagesTo path messages).map (actor, ·) := by
  induction messages generalizing tells with
  | nil => cases h; rfl
  | cons envelope envelopes ih =>
    obtain ⟨actors, hactors, h⟩ := Panics.bind_eq_ok.mp h
    obtain ⟨rest, hrest, h⟩ := Panics.bind_eq_ok.mp h
    obtain rfl := Except.ok.inj h
    rw [List.filter_append, ih hrest, messagesTo, messagesTo]
    by_cases hdst : envelope.1.dst = path
    · have hone : actors = [actor] := by
        unfold deliverNetMessage at hactors
        rw [hdst, hfound] at hactors
        obtain rfl := Except.ok.inj hactors
        simp [halive]
      simp [hone, hdst]
    · simp [hdst]

theorem toldOf_append {told told' : List (Tell R)} {origin : Incoming} :
    toldOf origin path (told ++ told') = toldOf origin path told ++ toldOf origin path told' := by
  simp [toldOf]

theorem toldOf_new {tells : List (R × NetMessage.Value)} {origin origin' : Incoming} :
    toldOf origin path (tells.map fun t => (⟨origin', t.1, t.2⟩ : Tell R)) =
      if origin' = origin then tells.filter (·.2.1.dst = path) else [] := by
  rw [toldOf, List.filter_map, List.map_map]
  split
  · rename_i ho
    simp [ho, Function.comp_def]
  · rename_i ho
    simp [ho, Function.comp_def]

end Deliver

namespace World

variable {R P : Type} [DecidableEq R] {debug implicitRoutes : Bool} {host : Incoming → Nat} {w w' : World R P}

/-! ## Runs -/

/-- What holds of the network, and of each lookup table. -/
structure Inv (debug : Bool) (w : World R P) : Prop where
  net : w.net.Inv debug
  services : ∀ j, (w.services j).Inv

/-- A step is one of the network, with what it delivers, or one of a dispatcher. -/
theorem step_net {a : Connections.Action} {chosen : List Nat}
    (h : w.step debug implicitRoutes host (.net a chosen) = some w') :
    w.net.step debug a = some w'.net ∧ w'.services = w.services ∧
      ((reads? a = none ∧ w'.told = w.told) ∨ ∃ origin tells, reads? a = some origin ∧
        deliverAll debug implicitRoutes (w.services (host origin)) chosen
          ((incoming w'.net origin).drop (incoming w.net origin).length) = .ok tells ∧
        w'.told = w.told ++ tells.map fun t => ⟨origin, t.1, t.2⟩) := by
  obtain ⟨net, hnet, h⟩ := Option.bind_eq_some_iff.mp h
  split at h
  · rename_i hr
    obtain rfl := Option.some.inj h
    exact ⟨hnet, rfl, .inl ⟨hr, rfl⟩⟩
  · rename_i origin hr
    obtain ⟨tells, htells, rfl⟩ := Option.map_eq_some_iff.mp h
    exact ⟨hnet, rfl, .inr ⟨origin, tells, hr, LookupService.toOption_eq_some.mp htells, rfl⟩⟩

theorem step_service {j : Nat} {a : LookupService.Action R P}
    (h : w.step debug implicitRoutes host (.service j a) = some w') :
    w'.net = w.net ∧ w'.told = w.told ∧ (w.services j).step debug a = some (w'.services j) ∧
      ∀ j', j' ≠ j → w'.services j' = w.services j' := by
  obtain ⟨d, hd, rfl⟩ := Option.map_eq_some_iff.mp h
  refine ⟨rfl, rfl, ?_, fun j' hj => Function.update_of_ne hj ..⟩
  show (w.services j).step debug a = some (Function.update w.services j d j)
  rw [Function.update_self]
  exact hd

theorem Inv.step {a : Action R P} (hi : w.Inv debug) (hl : a.Legal debug w)
    (h : w.step debug implicitRoutes host a = some w') : w'.Inv debug := by
  cases a with
  | net a chosen =>
    obtain ⟨hnet, hservices, -⟩ := step_net h
    exact ⟨hi.net.step hl hnet, hservices ▸ hi.services⟩
  | service j a =>
    obtain ⟨hnet, -, hj, hother⟩ := step_service h
    refine ⟨hnet ▸ hi.net, fun j' => ?_⟩
    by_cases hj' : j' = j
    · subst hj'
      exact (LookupService.step_cases (hi.services j') hj).inv (hi.services j')
    · rw [hother j' hj']
      exact hi.services j'

/-- From `w₁` on, an actor is found under its path, and is told what comes in for it. -/
structure Tells (debug implicitRoutes : Bool) (j : Nat) (actor : R) (key : LookupKey) (path : ActorPath)
    (origin : Incoming) (w₁ w : World R P) : Prop where
  stays : (w.services j).Stays actor key
  found : (w.services j).lookup.getByActorPath debug implicitRoutes path = .ok (.ref actor)
  told : ∃ news, messagesTo path (incoming w.net origin) = messagesTo path (incoming w₁.net origin) ++ news ∧
    toldOf origin path w.told = toldOf origin path w₁.told ++ news.map (actor, ·)

variable {j : Nat} {actor : R} {key : LookupKey} {path : ActorPath} {origin : Incoming} {w₁ : World R P}

/-- What comes in with a step is told. -/
theorem Tells.net {a : Connections.Action} {chosen : List Nat} (ho : host origin = j)
    (ht : Tells debug implicitRoutes j actor key path origin w₁ w)
    (h : w.step debug implicitRoutes host (.net a chosen) = some w') :
    Tells debug implicitRoutes j actor key path origin w₁ w' := by
  obtain ⟨hnet, hservices, htold⟩ := step_net h
  refine ⟨hservices ▸ ht.stays, hservices ▸ ht.found, ?_⟩
  obtain ⟨news, hnews, htoldOf⟩ := ht.told
  obtain ⟨⟨more, hmore⟩, hsame⟩ := grows_step hnet origin
  have hquiet : reads? a ≠ some origin → toldOf origin path w'.told = toldOf origin path w.told →
      ∃ news, messagesTo path (incoming w'.net origin) = messagesTo path (incoming w₁.net origin) ++ news ∧
        toldOf origin path w'.told = toldOf origin path w₁.told ++ news.map (actor, ·) :=
    fun hr he => ⟨news, by rw [hsame hr, hnews], by rw [he, htoldOf]⟩
  rcases htold with ⟨hr, he⟩ | ⟨origin', tells, hr, hdeliver, he⟩
  · exact hquiet (by rw [hr]; nofun) (by rw [he])
  · have hnew : toldOf origin path w'.told = toldOf origin path w.told ++
        if origin' = origin then tells.filter (·.2.1.dst = path) else [] := by
      rw [he, toldOf_append, toldOf_new]
    by_cases horigin : origin' = origin
    · subst horigin
      rw [if_pos rfl] at hnew
      rw [ho, ← hmore, List.drop_left] at hdeliver
      rw [deliverAll_messagesTo ht.found ht.stays.alive hdeliver] at hnew
      refine ⟨news ++ messagesTo path more, ?_, ?_⟩
      · rw [← hmore, messagesTo, List.filter_append, ← messagesTo, ← messagesTo, hnews, List.append_assoc]
      · rw [hnew, htoldOf, List.map_append, List.append_assoc]
    · rw [if_neg horigin, List.append_nil] at hnew
      refine hquiet ?_ hnew
      rw [hr]
      exact fun hs => horigin (Option.some.inj hs)

theorem Tells.step {a : Action R P} (ho : host origin = j) (hne : LookupService.pathKey path ≠ .name [])
    (hkey : LookupService.pathKey path = key) (ht : Tells debug implicitRoutes j actor key path origin w₁ w)
    (ha : ¬ a.Withdraws j actor key) (h : w.step debug implicitRoutes host a = some w') :
    Tells debug implicitRoutes j actor key path origin w₁ w' := by
  cases a with
  | net a chosen => exact ht.net ho h
  | service j' a =>
    obtain ⟨hnet, htold, hj, hother⟩ := step_service h
    have hrest := ht.told
    rw [← hnet, ← htold] at hrest
    by_cases hj' : j' = j
    · subst hj'
      have hstays := (LookupService.step_cases ht.stays.inv hj).stays ht.stays fun hw => ha ⟨rfl, hw⟩
      exact ⟨hstays, LookupService.found_of_view hne (hkey ▸ ht.stays.view) (hkey ▸ hstays.view) ht.found, hrest⟩
    · have hsame := hother j (Ne.symm hj')
      exact ⟨hsame ▸ ht.stays, hsame ▸ ht.found, hrest⟩

end World

/-- A network without connections, and systems that have just started. -/
def idle : World Nat Unit := ⟨.small, fun _ => .started, []⟩

end RemoteTell

end Kompact
