import Kompact.Buffers.ChunkChain
import Kompact.Dispatch.Registration
import Kompact.Framework.RoundRobin
import Kompact.Serialisation.Forwarding
import Kompact.Utils.IterExtras

/-!
# Routing to the members of a group

A group hands each message to one of its members, by a counter that all
routings share or by the hash of the sender, or to all of them.

`delivers_iff` says which groups do that right. A group without members cannot
select one: the length is the divisor, and both policies panic. And a counter
that starts over within a round serves some member twice and another not at
all, unless the number of members divides `2⁶⁴`.
-/

namespace Kompact

/-- A lease in it has the lengths of its slices, and was not read beyond its end. -/
def HeapOrSer.Intact : HeapOrSer → Prop
  | chunkLease lease => lease.Sized ∧ lease.readPointer ≤ lease.capacity
  | _ => True

namespace Routing

/-! ## Messages -/

/-- The data of a message, of which leases are as they are made. -/
structure NetData extends Kompact.NetData where
  intact : data.Intact

structure NetMessage where
  sender : ActorPath
  receiver : ActorPath
  data : NetData
  session : Option (BitVec 128)

/-- `HeapOrSer::try_clone`. What is on the heap is serialised into a vector, and a lease is copied. -/
def tryCloneData (m : Mem) : HeapOrSer → Panics (Except SerError { data : HeapOrSer // data.Intact })
  | .boxed ser => return ser.result.map fun _ => ⟨.serialised ser.payload, trivial⟩
  | .serialised bytes => return .ok ⟨.serialised bytes, trivial⟩
  | .chunkLease chunk => return .ok ⟨.serialised (← chunk.createByteClone m), trivial⟩
  | .chunkRef chunk => return .ok ⟨.chunkRef chunk, trivial⟩

def NetData.tryClone (m : Mem) (data : NetData) : Panics (Except SerError NetData) :=
  return (← tryCloneData m data.data).map fun cloned => { serId := data.serId, data := cloned.1, intact := cloned.2 }

def NetMessage.tryClone (m : Mem) (msg : NetMessage) : Panics (Except SerError NetMessage) :=
  return (← msg.data.tryClone m).map fun data => { msg with data }

/-! ## Policies -/

/-- `tell`: the member, the index it has, and the message. -/
structure Tell (R : Type) where
  member : R
  index : Nat
  msg : NetMessage

inductive RoutingPolicy where
  /-- With the counter that all routings share. -/
  | roundRobin (offset : BitVec 64)
  /-- With what the hasher makes of a sender. -/
  | senderHash (hash : ActorPath → BitVec 64)
  | broadcast

/-- The index, and the counter for the next invocation. -/
def getAndIncrementIndex (offset : BitVec 64) (length : Nat) : Panics (Nat × BitVec 64) :=
  if length = 0 then .error "attempt to calculate the remainder with a divisor of zero"
  else .ok (offset.toNat % length, offset + 1)

/-- The index for a message, of `length` buckets. -/
def getBucket (hash : ActorPath → BitVec 64) (msg : NetMessage) (length : Nat) : Panics Nat :=
  if length = 0 then .error "attempt to calculate the remainder with a divisor of zero"
  else .ok ((hash msg.sender).toNat % length)

variable {R : Type}

/-- `members[index].tell(msg)` -/
def tellAt (members : List R) (index : Nat) (msg : NetMessage) : Panics (List (Tell R)) :=
  match members[index]? with
  | some member => .ok [⟨member, index, msg⟩]
  | none => .error "index out of bounds"

namespace RoutingPolicy

/-- The broadcast part of this policy, if any. -/
def broadcastPart : RoutingPolicy → Option RoutingPolicy
  | broadcast => some broadcast
  | _ => none

/-- The select part of this policy, if any. -/
def selectPart : RoutingPolicy → Option RoutingPolicy
  | broadcast => none
  | policy => some policy

/-- The policy, as it is put into the store. -/
def stored (policy : RoutingPolicy) : StorePolicy RoutingPolicy := ⟨policy, policy.broadcastPart, policy.selectPart⟩

/-- Who is told what, and the policy for the next message. An error of a broadcast is logged. -/
def route (m : Mem) (members : List R) (msg : NetMessage) : RoutingPolicy → Panics (List (Tell R) × RoutingPolicy)
  | roundRobin offset => do
    let (index, offset) ← getAndIncrementIndex offset members.length
    return (← tellAt members index msg, roundRobin offset)
  | senderHash hash => do
    let index ← getBucket hash msg members.length
    return (← tellAt members index msg, senderHash hash)
  | broadcast => do
    let (_, told) ← IterExtras.forEachTryWith (NetMessage.tryClone m)
      (fun told member msg => told ++ [⟨member.1, member.2, msg⟩]) members.zipIdx msg []
    return (told, broadcast)

/-- One message after the other. -/
def routeAll (m : Mem) (members : List R) : List NetMessage → RoutingPolicy → Panics (List (Tell R) × RoutingPolicy)
  | [], policy => .ok ([], policy)
  | msg :: msgs, policy => do
    let (told, policy) ← policy.route m members msg
    let (told', policy) ← routeAll m members msgs policy
    return (told ++ told', policy)

end RoutingPolicy

/-- The policy of a group. `defaultHash` is the default hasher. -/
def policyOf (defaultHash : ActorPath → BitVec 64) : GroupPolicy RoutingPolicy → RoutingPolicy
  | .stored policy => policy
  | .defaultBroadcast => .broadcast
  | .defaultSelect => .senderHash defaultHash

/-- `RoutingGroup::route` -/
def routeGroup (m : Mem) (defaultHash : ActorPath → BitVec 64) (group : RoutingGroup R RoutingPolicy)
    (msg : NetMessage) : Panics (List (Tell R) × RoutingPolicy) :=
  (policyOf defaultHash group.policy).route m group.members msg

/-- No routing panics, a select policy tells one member if there is one, and as many consecutive
routings by the counter as there are members tell each of them once. -/
structure Delivers (m : Mem) (defaultHash : ActorPath → BitVec 64) (group : RoutingGroup R RoutingPolicy) : Prop where
  total : ∀ msg, ∃ r, routeGroup m defaultHash group msg = .ok r
  selects : (policyOf defaultHash group.policy).selectPart.isSome → group.members ≠ [] → ∀ msg,
    ∃ index member policy, group.members[index]? = some member ∧
      routeGroup m defaultHash group msg = .ok ([⟨member, index, msg⟩], policy)
  round : ∀ offset, policyOf defaultHash group.policy = .roundRobin offset → ∀ msgs : List NetMessage,
    msgs.length = group.members.length → ∃ told policy,
      (policyOf defaultHash group.policy).routeAll m group.members msgs = .ok (told, policy) ∧
        (told.map Tell.index).Perm (List.range group.members.length) ∧ told.map Tell.msg = msgs ∧
        ∀ tell ∈ told, group.members[tell.index]? = some tell.member

/-! ## Clones -/

/-- What may fail when data is cloned. -/
def serialised (data : HeapOrSer) : Except SerError Unit :=
  match data with
  | .boxed ser => ser.result
  | _ => .ok ()

/-- A clone has the bytes that are not read yet; a reference stays what it is. -/
def copied (m : Mem) : HeapOrSer → { data : HeapOrSer // data.Intact }
  | .chunkRef chunk => ⟨.chunkRef chunk, trivial⟩
  | data => ⟨.serialised (data.unread m), trivial⟩

def NetMessage.copied (m : Mem) (msg : NetMessage) : NetMessage :=
  { msg with data := ⟨⟨msg.data.serId, (Routing.copied m msg.data.data).1⟩, (Routing.copied m msg.data.data).2⟩ }

theorem tryCloneData_eq (m : Mem) {data : HeapOrSer} (h : data.Intact) :
    tryCloneData m data = .ok ((serialised data).map fun _ => copied m data) := by
  cases data with
  | boxed ser => rfl
  | serialised bytes => rfl
  | chunkLease chunk =>
    rw [tryCloneData, ChunkLease.createByteClone_spec m h.1]
    rfl
  | chunkRef chunk => rfl

theorem tryClone_eq (m : Mem) (msg : NetMessage) :
    msg.tryClone m = .ok ((serialised msg.data.data).map fun _ => msg.copied m) := by
  rw [NetMessage.tryClone, NetData.tryClone, tryCloneData_eq m msg.data.intact]
  cases serialised msg.data.data <;> rfl

/-! ## Routing -/

section

variable {R : Type} {members : List R}

/-- A broadcast does not panic. -/
theorem route_broadcast_ok (m : Mem) (members : List R) (msg : NetMessage) :
    ∃ told, RoutingPolicy.broadcast.route m members msg = .ok (told, .broadcast) := by
  cases hs : serialised msg.data.data with
  | ok u =>
    have hclone : msg.tryClone m = .ok (.ok (msg.copied m)) := by rw [tryClone_eq, hs]; rfl
    exact ⟨_, by rw [RoutingPolicy.route, IterExtras.forEachTryWith_ok hclone]; rfl⟩
  | error e =>
    have hclone : msg.tryClone m = .ok (.error e) := by rw [tryClone_eq, hs]; rfl
    rw [RoutingPolicy.route, IterExtras.forEachTryWith_error hclone]
    match members.zipIdx with
    | [] => exact ⟨_, rfl⟩
    | [_] => exact ⟨_, rfl⟩
    | _ :: _ :: _ => exact ⟨_, rfl⟩

theorem tellAt_mod (h : members ≠ []) (n : Nat) (msg : NetMessage) :
    ∃ member, members[n % members.length]? = some member ∧
      tellAt members (n % members.length) msg = .ok [⟨member, n % members.length, msg⟩] := by
  have hlt : n % members.length < members.length := Nat.mod_lt _ (List.length_pos_iff.mpr h)
  refine ⟨members[n % members.length], List.getElem?_eq_getElem hlt, ?_⟩
  rw [tellAt, List.getElem?_eq_getElem hlt]

/-- The counter, taken modulo the number of members, is the index. -/
theorem route_roundRobin (m : Mem) (h : members ≠ []) (offset : BitVec 64) (msg : NetMessage) :
    ∃ member, members[offset.toNat % members.length]? = some member ∧
      (RoutingPolicy.roundRobin offset).route m members msg =
        .ok ([⟨member, offset.toNat % members.length, msg⟩], .roundRobin (offset + 1)) := by
  obtain ⟨member, hm, ht⟩ := tellAt_mod h offset.toNat msg
  refine ⟨member, hm, ?_⟩
  rw [RoutingPolicy.route, getAndIncrementIndex, if_neg (by simpa using h)]
  simp only [bind, Except.bind, ht]
  rfl

theorem route_senderHash (m : Mem) (h : members ≠ []) (hash : ActorPath → BitVec 64) (msg : NetMessage) :
    ∃ member, members[(hash msg.sender).toNat % members.length]? = some member ∧
      (RoutingPolicy.senderHash hash).route m members msg =
        .ok ([⟨member, (hash msg.sender).toNat % members.length, msg⟩], .senderHash hash) := by
  obtain ⟨member, hm, ht⟩ := tellAt_mod h (hash msg.sender).toNat msg
  refine ⟨member, hm, ?_⟩
  rw [RoutingPolicy.route, getBucket, if_neg (by simpa using h)]
  simp only [bind, Except.bind, ht]
  rfl

/-- A select policy panics where there is nothing to select. -/
theorem route_empty (m : Mem) {policy : RoutingPolicy} (h : policy ≠ .broadcast) (msg : NetMessage) :
    policy.route m ([] : List R) msg = .error "attempt to calculate the remainder with a divisor of zero" := by
  cases policy with
  | roundRobin offset => rfl
  | senderHash hash => rfl
  | broadcast => exact absurd rfl h

/-- The indices that the counter gives. -/
theorem routeAll_roundRobin (m : Mem) (h : members ≠ []) (offset : BitVec 64) (msgs : List NetMessage) :
    ∃ told policy, (RoutingPolicy.roundRobin offset).routeAll m members msgs = .ok (told, policy) ∧
      told.map Tell.index = (List.range msgs.length).map (fun i => (offset.toNat + i) % 2 ^ 64 % members.length) ∧
      told.map Tell.msg = msgs ∧ ∀ tell ∈ told, members[tell.index]? = some tell.member := by
  induction msgs generalizing offset with
  | nil => exact ⟨[], _, rfl, rfl, rfl, fun _ ht => by cases ht⟩
  | cons msg msgs ih =>
    obtain ⟨member, hm, hroute⟩ := route_roundRobin m h offset msg
    obtain ⟨told, policy, hall, hidx, hmsg, hmem⟩ := ih (offset + 1)
    refine ⟨⟨member, offset.toNat % members.length, msg⟩ :: told, policy, ?_, ?_, ?_, ?_⟩
    · rw [RoutingPolicy.routeAll, hroute]
      simp only [bind, Except.bind, hall]
      rfl
    · rw [List.map_cons, hidx, List.length_cons, List.range_succ_eq_map, List.map_cons, List.map_map]
      refine congrArg₂ List.cons ?_ (List.map_congr_left fun i _ => ?_)
      · rw [Nat.add_zero, Nat.mod_eq_of_lt offset.isLt]
      · simp only [Function.comp_apply, BitVec.toNat_add]
        rw [Nat.mod_add_mod, Nat.add_assoc, show (1 : BitVec 64).toNat + i = i.succ from Nat.add_comm 1 i]
    · rw [List.map_cons, hmsg]
    · exact List.forall_mem_cons.mpr ⟨hm, hmem⟩

/-- A message of no bytes. -/
def NetMessage.blank : NetMessage :=
  ⟨.unique ⟨.tcp, .v4 1, 80⟩ 7, .named ⟨.tcp, .v4 2, 80⟩ [[0x61]], ⟨⟨1, .serialised []⟩, trivial⟩, none⟩

/-! ## Delivery -/

/-- A select policy tells one member, if there is one. -/
theorem route_select (m : Mem) {policy : RoutingPolicy} (hs : policy.selectPart.isSome) (h : members ≠ [])
    (msg : NetMessage) : ∃ index member policy', members[index]? = some member ∧
      policy.route m members msg = .ok ([⟨member, index, msg⟩], policy') := by
  cases policy with
  | roundRobin offset =>
    obtain ⟨member, hm, hroute⟩ := route_roundRobin m h offset msg
    exact ⟨_, member, _, hm, hroute⟩
  | senderHash hash =>
    obtain ⟨member, hm, hroute⟩ := route_senderHash m h hash msg
    exact ⟨_, member, _, hm, hroute⟩
  | broadcast => cases hs

/-- No routing panics if and only if the policy broadcasts or has somebody to select. -/
theorem route_total_iff (m : Mem) {policy : RoutingPolicy} :
    (∀ msg, ∃ r, policy.route m members msg = .ok r) ↔ policy = .broadcast ∨ members ≠ [] := by
  constructor
  · intro h
    by_contra hno
    obtain ⟨hpolicy, hempty⟩ := not_or.mp hno
    obtain ⟨r, hr⟩ := h .blank
    rw [not_not.mp hempty, route_empty m hpolicy] at hr
    cases hr
  · intro h msg
    by_cases hpolicy : policy = .broadcast
    · obtain ⟨told, htold⟩ := route_broadcast_ok m members msg
      exact ⟨_, hpolicy ▸ htold⟩
    · have hselect : policy.selectPart.isSome := by
        cases policy with
        | broadcast => exact absurd rfl hpolicy
        | _ => rfl
      obtain ⟨index, member, policy', -, hroute⟩ := route_select m hselect (h.resolve_left hpolicy) msg
      exact ⟨_, hroute⟩

/-- As many routings as there are members tell each of them once if and only if the counter gives
each index once. -/
theorem round_iff (m : Mem) (h : members ≠ []) (offset : BitVec 64) :
    (∀ msgs : List NetMessage, msgs.length = members.length → ∃ told policy,
      (RoutingPolicy.roundRobin offset).routeAll m members msgs = .ok (told, policy) ∧
        (told.map Tell.index).Perm (List.range members.length) ∧ told.map Tell.msg = msgs ∧
        ∀ tell ∈ told, members[tell.index]? = some tell.member) ↔
      offset.toNat + members.length ≤ 2 ^ 64 ∨ members.length ∣ 2 ^ 64 := by
  rw [← RoundRobin.counted_perm_iff offset.isLt]
  constructor
  · intro hround
    obtain ⟨told, policy, hroute, hperm, -⟩ := hround (List.replicate members.length .blank) List.length_replicate
    obtain ⟨told', policy', hroute', hidx, -⟩ :=
      routeAll_roundRobin m h offset (List.replicate members.length .blank)
    obtain ⟨rfl, -⟩ := Prod.mk.inj (Except.ok.inj (hroute'.symm.trans hroute))
    rwa [hidx, List.length_replicate] at hperm
  · intro hperm msgs hlen
    obtain ⟨told, policy, hroute, hidx, hmsg, hmem⟩ := routeAll_roundRobin m h offset msgs
    refine ⟨told, policy, hroute, ?_, hmsg, hmem⟩
    rwa [hidx, hlen]

/-- From any value of the counter: a group delivers if and only if there is a member or it
broadcasts, and the counter does not start over within a round or does so after whole rounds. -/
theorem delivers_iff (m : Mem) (defaultHash : ActorPath → BitVec 64) (group : RoutingGroup R RoutingPolicy) :
    Delivers m defaultHash group ↔
      (policyOf defaultHash group.policy = .broadcast ∨ group.members ≠ []) ∧
        ∀ offset, policyOf defaultHash group.policy = .roundRobin offset →
          offset.toNat + group.members.length ≤ 2 ^ 64 ∨ group.members.length ∣ 2 ^ 64 := by
  -- the counter matters only where there is a member
  have hne (hsome : policyOf defaultHash group.policy = .broadcast ∨ group.members ≠ []) {offset : BitVec 64}
      (hp : policyOf defaultHash group.policy = .roundRobin offset) : group.members ≠ [] :=
    hsome.resolve_left (by rw [hp]; exact RoutingPolicy.noConfusion)
  constructor
  · intro h
    have hsome := (route_total_iff m).mp h.total
    refine ⟨hsome, fun offset hp => (round_iff m (hne hsome hp) offset).mp ?_⟩
    rw [← hp]
    exact h.round offset hp
  · rintro ⟨hsome, hround⟩
    refine ⟨(route_total_iff m).mpr hsome, fun hs h msg => route_select m hs h msg, fun offset hp => ?_⟩
    rw [hp]
    exact (round_iff m (hne hsome hp) offset).mpr (hround offset hp)

end

/-- A policy is set, an actor is registered below it and removed again. -/
def emptied : List (ActorStore.Op Nat RoutingPolicy) :=
  [.setRoutingPolicy [[0x61]] (RoutingPolicy.roundRobin 0).stored, .insert (.segments [[0x61], [0x62]]) 7,
    .remove (fun _ => true) 7]

/-- The group is found without its member, and a message to it panics. And where the counter has
its last value, the next three messages to three members go to the first, the first and the second. -/
theorem not_delivers_emptied :
    (ActorStore.run emptied).getByNamedPath true true [[0x61]] = .ok (.group ⟨[], .stored (.roundRobin 0)⟩) ∧
    ¬ Delivers (R := Nat) (fun _ _ => 0) (fun _ => 0) ⟨[], .stored (.roundRobin 0)⟩ ∧
    ¬ Delivers (R := Nat) (fun _ _ => 0) (fun _ => 0) ⟨[7, 8, 9], .stored (.roundRobin (-1))⟩ := by
  refine ⟨rfl, fun h => ?_, fun h => ?_⟩
  · obtain ⟨r, hr⟩ := h.total .blank
    cases hr
  · obtain ⟨told, policy, hroute, hperm, -⟩ := h.round (-1) rfl [.blank, .blank, .blank] rfl
    obtain ⟨rfl, -⟩ := Prod.mk.inj (Except.ok.inj hroute)
    exact absurd hperm (by decide)

end Routing

end Kompact
