import Kompact.Framework.Transition
import Kompact.Network.Dispatcher
import Kompact.Network.Handshake

/-!
# Mutual connect

Two network threads that are asked to connect to each other, so that there may
be two streams between them. The streams are ordered and lose nothing; a
thread handles one event at a time, and the two threads run independently.

A stream goes through the stages of `Stage`. Which stages the two streams can
be in at the same time depends on whose session id is the greater one
(`Compatible`): the stream with the smaller id makes way wherever the two meet.
`Joint` is the invariant, and in a quiescent state both threads are left with
the two ends of one stream (`agree_of_calm`), unless a `Start` is handled when
the other channel is in use already (`Calm`).
-/

namespace Kompact

/-- What is particular to one of the two threads. -/
structure Party where
  /-- The address it listens on. -/
  addr : SocketAddr
  /-- The address from which its stream comes. -/
  source : SocketAddr
  /-- The id of the session that it requests. -/
  id : SessionId
  source_ne : source ≠ addr

/-- One of the two threads. -/
structure Half (α : Type) where
  thread : NetworkThread α
  /-- The thread has not been asked to connect yet. -/
  pending : Bool
  /-- The channel that the thread has requested. -/
  out : Option Nat
  /-- The channel on which it has accepted the other one's stream. -/
  acc : Option Nat

variable {α : Type}

/-- The next frame that channel `j` has written is read by the other thread. -/
def Half.take (h : Half α) (j : Nat) : Half α :=
  { h with thread := h.thread.setChannel j (h.thread.channel j).takeWritten }

namespace MutualConnect

/-- The actions of one thread; `taken` says how many frames the streams take. -/
inductive Act (α : Type) where
  | connect (taken : Nat → Nat)
  | accept (taken : Nat → Nat)
  | send (msg : α)
  | write (i : Nat) (taken : Nat → Nat)
  | beginRead (i : Nat)
  | read (taken : Nat → Nat)
  | endRead

/-- The other end of the stream of channel `i`. -/
def otherEnd (L R : Half α) (i : Nat) : Option Nat :=
  if L.out = some i then R.acc else if L.acc = some i then R.out else none

/-- The frame that is read next, and the channel that has written it. -/
def nextFrame (L R : Half α) : Option (Nat × NetFrame α) := do
  let i ← L.thread.reading
  let j ← otherEnd L R i
  let f ← (R.thread.channel j).written.head?
  return (j, f)

/-- A step of the thread `L` of party `P`. -/
def stepAt (P Q : Party) (L R : Half α) : Act α → Option (Half α × Half α)
  | .connect taken =>
    if L.pending then
      (L.thread.receiveDispatch (.connect Q.addr) { id := P.id, taken }).map fun thread =>
        ({ L with
          thread
          pending := false
          out := if thread.token = L.thread.token then L.out else some L.thread.token }, R)
    else none
  | .accept taken =>
    if R.out.isSome ∧ L.acc = none then
      (L.thread.step (.accept Q.source { taken })).map fun thread =>
        ({ L with
          thread
          acc := if thread.token = L.thread.token then none else some L.thread.token }, R)
    else none
  | .send msg =>
    (L.thread.receiveDispatch (.sendTcp Q.addr (.lazy msg)) {}).map fun thread => ({ L with thread }, R)
  | .write i taken => (L.thread.step (.write i .ok { taken })).map fun thread => ({ L with thread }, R)
  | .beginRead i => (L.thread.step (.beginRead i)).map fun thread => ({ L with thread }, R)
  | .endRead => (L.thread.step .endRead).map fun thread => ({ L with thread }, R)
  | .read taken =>
    (nextFrame L R).bind fun (j, f) =>
      (L.thread.step (.read f { taken })).map fun thread =>
        ({ L with thread }, R.take j)

/-- One of the two threads, `true` or `false`, takes a step. -/
def step (m : Bool → Party) (s : Bool → Half α) (a : Bool × Act α) : Option (Bool → Half α) :=
  (stepAt (m a.1) (m !a.1) (s a.1) (s !a.1) a.2).map fun LR p => if p = a.1 then LR.1 else LR.2

/-- Two threads that have just been started. -/
def init (m : Bool → Party) (soft hard : Nat) (p : Bool) : Half α where
  thread := .new (m p).addr soft hard
  pending := true
  out := none
  acc := none

/-- No `Start` is handled while the channel registered for the address is connected and has received messages. -/
def CalmAt (L R : Half α) : Act α → Prop
  | .read _ => ∀ jf ∈ nextFrame L R, match jf.2 with
    | .start addr _ => ∀ k ∈ L.thread.addressMap.lookup addr,
        (L.thread.channel k).connected = true → (L.thread.channel k).messages = 0
    | _ => True
  | _ => True

def Calm (s : Bool → Half α) (a : Bool × Act α) : Prop := CalmAt (s a.1) (s !a.1) a.2

/-! ## The stages of a stream -/

inductive Stage where
  /-- There is no stream. -/
  | idle
  /-- It is requested. -/
  | opened
  /-- It is accepted, and `Hello` is on its way. -/
  | greeted
  /-- `Start` is on its way. -/
  | started
  /-- `Ack` is on its way, and messages after it. -/
  | acked
  /-- Both ends are connected. -/
  | live
  /-- The accepting end has been dropped. -/
  | refused
  /-- The requesting end has been dropped before the stream was accepted. -/
  | unaccepted
  /-- The requesting end has been dropped, `Start` may be on its way. -/
  | waiting
  /-- Both ends have been dropped. -/
  | dead
  deriving DecidableEq, Repr

def AllData (fs : List (NetFrame α)) : Prop := ∀ f ∈ fs, ∃ msg, f = .data msg

/-- What the two ends of a stream of `own` to `peer` look like: how far they are, and the frames on their way
to the requesting end and to the accepting end. -/
def Stage.Holds (own peer : SocketAddr) (id : SessionId) (req acc : Phase) (toReq toAcc : List (NetFrame α)) :
    Stage → Prop
  | idle => req = .absent ∧ acc = .absent
  | opened => req = .inUse (.requested peer id) ∧ acc = .absent ∧ toAcc = []
  | greeted => req = .inUse (.requested peer id) ∧ acc = .inUse .initialising ∧ toReq = [.hello peer] ∧ toAcc = []
  | started =>
    req = .inUse (.initialised peer id) ∧ acc = .inUse .initialising ∧ toReq = [] ∧ toAcc = [.start own id]
  | acked => req = .inUse (.initialised peer id) ∧ acc = .inUse (.connected own id) ∧
      (∃ fs, toReq = .ack :: fs ∧ AllData fs) ∧ toAcc = []
  | live => req = .inUse (.connected peer id) ∧ acc = .inUse (.connected own id) ∧ AllData toReq ∧ AllData toAcc
  | refused => req = .inUse (.initialised peer id) ∧ acc = .gone ∧ toReq = []
  | unaccepted => req = .gone ∧ acc = .absent ∧ toAcc = []
  | waiting => req = .gone ∧ acc = .inUse .initialising ∧ (toAcc = [] ∨ toAcc = [.start own id])
  | dead => req = .gone ∧ acc = .gone

/-- The stage of the stream with the greater id, and that of the other one. -/
def Compatible : Stage → Stage → Bool
  | .idle, τ => τ ∈ [.idle, .opened, .greeted, .started, .acked, .live]
  | .opened, τ | .greeted, τ | .started, τ => τ ∈ [.idle, .opened, .greeted, .started, .refused]
  | .acked, τ | .live, τ => τ ∈ [.idle, .unaccepted, .waiting, .dead]
  | _, _ => false

/-- The stream is established as far as its accepting end is concerned. -/
def Stage.isAccepted (σ : Stage) : Bool := σ = .acked || σ = .live

/-! ## The invariant -/

/-- The stages of the stream of `P` and of that of `Q`. -/
def Fits (P Q : Party) (σ τ : Stage) : Bool :=
  if Q.id.asU128 < P.id.asU128 then Compatible σ τ else Compatible τ σ

/-- The two threads, and the stages of their streams. -/
structure Joint (P Q : Party) (L R : Half α) (σ τ : Stage) : Prop where
  left : NetworkThread.Side P.addr Q.addr Q.source L.thread L.out L.acc
  right : NetworkThread.Side Q.addr P.addr P.source R.thread R.out R.acc
  forth : σ.Holds P.addr Q.addr P.id (L.thread.phase L.out) (R.thread.phase R.acc) (R.thread.flight R.acc)
    (L.thread.flight L.out)
  back : τ.Holds Q.addr P.addr Q.id (R.thread.phase R.out) (L.thread.phase L.acc) (L.thread.flight L.acc)
    (R.thread.flight R.out)
  fits : Fits P Q σ τ = true
  leftPending : L.pending = true → σ = .idle
  rightPending : R.pending = true → τ = .idle
  /-- A thread requests no stream only if the other one's is accepted by then. -/
  leftIdle : L.pending = false → σ = .idle → τ.isAccepted = true
  rightIdle : R.pending = false → τ = .idle → σ.isAccepted = true

variable {P Q : Party} {L R : Half α} {σ τ : Stage}

theorem fits_symm (hne : P.id.asU128 ≠ Q.id.asU128) : Fits Q P τ σ = Fits P Q σ τ := by
  unfold Fits
  by_cases hlt : Q.id.asU128 < P.id.asU128
  · rw [if_pos hlt, if_neg (Nat.lt_asymm hlt)]
  · rw [if_neg hlt, if_pos (Nat.lt_of_le_of_ne (Nat.not_lt.mp hlt) hne)]

theorem Joint.symm (h : Joint P Q L R σ τ) (hne : P.id.asU128 ≠ Q.id.asU128) : Joint Q P R L τ σ :=
  ⟨h.right, h.left, h.back, h.forth, (fits_symm hne).trans h.fits, h.rightPending, h.leftPending, h.rightIdle,
    h.leftIdle⟩

/-- What is possible for one order of the ids and for the other. -/
theorem fits_of {σ' τ' : Stage} (h : Fits P Q σ τ = true)
    (hpos : Compatible σ τ = true → Compatible σ' τ' = true) (hneg : Compatible τ σ = true → Compatible τ' σ' = true) :
    Fits P Q σ' τ' = true := by
  unfold Fits at h ⊢
  split at h
  · rename_i hlt
    rw [if_pos hlt]
    exact hpos h
  · rename_i hlt
    rw [if_neg hlt]
    exact hneg h

section

variable {own peer : SocketAddr} {id : SessionId} {req acc : Phase} {toReq toAcc : List (NetFrame α)}

theorem Stage.Holds.isConnected_acc (h : σ.Holds own peer id req acc toReq toAcc) :
    acc.isConnected = σ.isAccepted := by
  cases σ with
  | idle => obtain ⟨-, rfl⟩ := h; rfl
  | opened => obtain ⟨-, rfl, -⟩ := h; rfl
  | greeted => obtain ⟨-, rfl, -⟩ := h; rfl
  | started => obtain ⟨-, rfl, -⟩ := h; rfl
  | acked => obtain ⟨-, rfl, -⟩ := h; rfl
  | live => obtain ⟨-, rfl, -⟩ := h; rfl
  | refused => obtain ⟨-, rfl, -⟩ := h; rfl
  | unaccepted => obtain ⟨-, rfl, -⟩ := h; rfl
  | waiting => obtain ⟨-, rfl, -⟩ := h; rfl
  | dead => obtain ⟨-, rfl⟩ := h; rfl

theorem Stage.Holds.isConnected_req (h : σ.Holds own peer id req acc toReq toAcc) :
    req.isConnected = true ↔ σ = .live := by
  cases σ with
  | idle => obtain ⟨rfl, -⟩ := h; decide
  | opened => obtain ⟨rfl, -⟩ := h; simp [Phase.isConnected, ChannelState.isConnected]
  | greeted => obtain ⟨rfl, -⟩ := h; simp [Phase.isConnected, ChannelState.isConnected]
  | started => obtain ⟨rfl, -⟩ := h; simp [Phase.isConnected, ChannelState.isConnected]
  | acked => obtain ⟨rfl, -⟩ := h; simp [Phase.isConnected, ChannelState.isConnected]
  | live => obtain ⟨rfl, -⟩ := h; simp [Phase.isConnected, ChannelState.isConnected]
  | refused => obtain ⟨rfl, -⟩ := h; simp [Phase.isConnected, ChannelState.isConnected]
  | unaccepted => obtain ⟨rfl, -⟩ := h; decide
  | waiting => obtain ⟨rfl, -⟩ := h; decide
  | dead => obtain ⟨rfl, -⟩ := h; decide

theorem AllData.append {fs : List (NetFrame α)} (h : AllData fs) (msg : α) : AllData (fs ++ [.data msg]) := by
  intro f hf
  rcases List.mem_append.mp hf with hf | hf
  · exact h f hf
  · exact ⟨msg, List.mem_singleton.mp hf⟩

/-- The requesting end sends a message. -/
theorem Stage.Holds.send_req (h : σ.Holds own peer id req acc toReq toAcc) (hc : req.isConnected = true) (msg : α) :
    σ.Holds own peer id req acc toReq (toAcc ++ [.data msg]) := by
  obtain rfl := h.isConnected_req.mp hc
  obtain ⟨h1, h2, h3, h4⟩ := h
  exact ⟨h1, h2, h3, h4.append msg⟩

/-- The accepting end sends a message. -/
theorem Stage.Holds.send_acc (h : σ.Holds own peer id req acc toReq toAcc) (hc : acc.isConnected = true) (msg : α) :
    σ.Holds own peer id req acc (toReq ++ [.data msg]) toAcc := by
  rw [h.isConnected_acc] at hc
  cases σ with
  | acked =>
    obtain ⟨h1, h2, ⟨fs, rfl, h3⟩, h4⟩ := h
    exact ⟨h1, h2, ⟨fs ++ [.data msg], rfl, h3.append msg⟩, h4⟩
  | live =>
    obtain ⟨h1, h2, h3, h4⟩ := h
    exact ⟨h1, h2, h3.append msg, h4⟩
  | _ => cases hc

/-- No end of a stream is about to close. -/
theorem Stage.Holds.not_closeReceived (h : σ.Holds own peer id req acc toReq toAcc) (a : SocketAddr) (x : SessionId) :
    req ≠ .inUse (.closeReceived a x) ∧ acc ≠ .inUse (.closeReceived a x) := by
  cases σ <;> (obtain ⟨h1, h2⟩ := h; first | rw [h1, h2] | rw [h1, h2.1]) <;> simp

end

/-! ## Steps that leave the stages as they are -/

open NetworkThread (Side Same)

variable {t : NetworkThread α} {L' R' : Half α}

theorem phase_absent {e : Option Nat} (h : t.phase e = .absent) : e = none := by
  rcases e with _ | i
  · rfl
  · rw [NetworkThread.phase_some] at h
    split at h
    · cases h
    · cases h

/-- Nothing that the invariant depends on has changed. -/
theorem Joint.quiet (h : Joint P Q L R σ τ) (hside : Side P.addr Q.addr Q.source t L.out L.acc)
    (hsame : ∀ e, Same L.thread t e) : Joint P Q { L with thread := t } R σ τ := by
  refine ⟨hside, h.right, ?_, ?_, h.fits, h.leftPending, h.rightPending, h.leftIdle, h.rightIdle⟩
  · rw [(hsame L.out).phase, (hsame L.out).flight]
    exact h.forth
  · rw [(hsame L.acc).phase, (hsame L.acc).flight]
    exact h.back

theorem Joint.beginRead (h : Joint P Q L R σ τ) {i : Nat} (hi : i ∈ L.thread.tokenMap) :
    Joint P Q { L with thread := { L.thread.updateLru i with reading := some i } } R σ τ := by
  have hlru : Side P.addr Q.addr Q.source (L.thread.updateLru i) L.out L.acc := h.left.updateLru
  refine h.quiet ?_ (fun e => ⟨NetworkThread.phase_updateLru, NetworkThread.flight_updateLru⟩)
  refine hlru.congr rfl rfl rfl rfl hlru.nodup (fun _ => Iff.rfl) rfl (fun j hj => ?_) (fun _ => rfl)
    (fun _ _ => ⟨rfl, rfl⟩) (fun _ _ _ => rfl)
  obtain rfl := Option.some.inj hj
  exact NetworkThread.mem_updateLru.mpr hi

theorem Joint.write (h : Joint P Q L R σ τ) {i : Nat} {env : Env} (hi : i ∈ L.thread.tokenMap) :
    Joint P Q { L with thread := L.thread.writeTcp i .ok env } R σ τ := by
  have hst : ∀ a x, (L.thread.channel i).state ≠ .closeReceived a x := by
    intro a x hst
    have hp := NetworkThread.phase_polled hi
    rw [hst] at hp
    rcases h.left.ends i hi with he | he
    · exact (h.forth.not_closeReceived a x).1 (he ▸ hp)
    · exact (h.back.not_closeReceived a x).2 (he ▸ hp)
  obtain ⟨hside, hsame⟩ := h.left.write hi hst env
  exact h.quiet hside hsame

/-- A message is sent: it goes to the other end of a stream that is connected here. -/
theorem Joint.send (h : Joint P Q L R σ τ) (msg : α) :
    Joint P Q { L with thread := L.thread.sendTcpMessage Q.addr (.lazy msg) {} } R σ τ := by
  have hok : ({} : Env).ok = true := rfl
  obtain ⟨hside, hphase, hflight⟩ := h.left.send hok msg
  rcases hflight with hflight | ⟨i, hi, hc, hflight⟩
  · exact h.quiet hside (fun e => ⟨hphase e, hflight e⟩)
  · refine ⟨hside, h.right, ?_, ?_, h.fits, h.leftPending, h.rightPending, h.leftIdle, h.rightIdle⟩
    · rw [hphase, hflight]
      split
      · rename_i he
        exact h.forth.send_req (he ▸ hc) msg
      · exact h.forth
    · rw [hphase, hflight]
      split
      · rename_i he
        exact h.back.send_acc (he ▸ hc) msg
      · exact h.back

/-- The stages of the streams advance. -/
theorem Joint.advance {σ' τ' : Stage} (h : Joint P Q L R σ τ) (hL : L'.pending = L.pending)
    (hR : R'.pending = R.pending) (hleft : Side P.addr Q.addr Q.source L'.thread L'.out L'.acc)
    (hright : Side Q.addr P.addr P.source R'.thread R'.out R'.acc)
    (hforth : σ'.Holds P.addr Q.addr P.id (L'.thread.phase L'.out) (R'.thread.phase R'.acc) (R'.thread.flight R'.acc)
      (L'.thread.flight L'.out))
    (hback : τ'.Holds Q.addr P.addr Q.id (R'.thread.phase R'.out) (L'.thread.phase L'.acc) (L'.thread.flight L'.acc)
      (R'.thread.flight R'.out))
    (hfits : Fits P Q σ' τ' = true) (hσ : σ' = .idle ↔ σ = .idle) (hτ : τ' = .idle ↔ τ = .idle)
    (haσ : σ.isAccepted = true → σ'.isAccepted = true) (haτ : τ.isAccepted = true → τ'.isAccepted = true) :
    Joint P Q L' R' σ' τ' := by
  refine ⟨hleft, hright, hforth, hback, hfits, fun hp => ?_, fun hp => ?_, fun hp hi => ?_, fun hp hi => ?_⟩
  · exact hσ.mpr (h.leftPending (hL ▸ hp))
  · exact hτ.mpr (h.rightPending (hR ▸ hp))
  · exact haτ (h.leftIdle (hL ▸ hp) (hσ.mp hi))
  · exact haσ (h.rightIdle (hR ▸ hp) (hτ.mp hi))

/-! ## The streams are opened -/

variable {env : Env}

theorem Joint.opened (h : Joint P Q L R .idle τ) (hτ : τ.isAccepted = false) :
    Joint P Q { L with
      thread := L.thread.storeStream Q.addr (.requested Q.addr P.id) env
      pending := false
      out := some L.thread.token } R .opened τ := by
  have hleft : Side P.addr Q.addr Q.source L.thread none L.acc := phase_absent h.forth.1 ▸ h.left
  obtain ⟨hp, hf⟩ : (L.thread.storeStream Q.addr (.requested Q.addr P.id) env).phase L.acc = L.thread.phase L.acc ∧
      (L.thread.storeStream Q.addr (.requested Q.addr P.id) env).flight L.acc = L.thread.flight L.acc :=
    hleft.old_storeStream (.inr rfl)
  refine ⟨hleft.storeRequested (Ne.symm Q.source_ne), h.right, ⟨NetworkThread.new_storeStream.1, h.forth.2,
    NetworkThread.new_storeStream.2⟩, ?_, ?_, (fun hf => by cases hf), h.rightPending, (fun _ hf => by cases hf),
    fun hq hi => absurd (h.rightIdle hq hi) (by decide)⟩
  · rw [hp, hf]
    exact h.back
  · refine fits_of h.fits ?_ ?_ <;> revert hτ <;> cases τ <;> decide

theorem Joint.connect {taken : Nat → Nat} (h : Joint P Q L R σ τ)
    (hs : stepAt P Q L R (.connect taken) = some (L', R')) : ∃ σ' τ', Joint P Q L' R' σ' τ' := by
  simp only [stepAt] at hs
  split at hs
  · rename_i hp
    obtain rfl := h.leftPending hp
    have hleft : Side P.addr Q.addr Q.source L.thread none L.acc := phase_absent h.forth.1 ▸ h.left
    obtain ⟨t', ht, hs⟩ := Option.map_eq_some_iff.mp hs
    obtain ⟨rfl, rfl⟩ := Prod.mk.inj hs
    unfold NetworkThread.receiveDispatch at ht
    split at ht
    · obtain rfl := Option.some.inj ht
      rw [hleft.connect rfl, h.back.isConnected_acc]
      cases hτ : τ.isAccepted with
      | true =>
        -- the other stream is there already
        rw [if_pos rfl, if_pos rfl]
        exact ⟨.idle, τ, h.left, h.right, h.forth, h.back, h.fits, (fun _ => rfl), h.rightPending, (fun _ _ => hτ),
          h.rightIdle⟩
      | false =>
        rw [if_neg Bool.false_ne_true, if_neg NetworkThread.token_storeStream_ne]
        exact ⟨.opened, τ, h.opened hτ⟩
    · cases ht
  · cases hs

/-- The thread accepts the other one's stream. -/
theorem Joint.greeted {τ' : Stage} (h : Joint P Q L R σ τ) (ha : L.acc = none)
    (hτ : (τ = .opened ∧ τ' = .greeted) ∨ (τ = .unaccepted ∧ τ' = .waiting)) :
    Joint P Q { L with
      thread := L.thread.storeStream Q.source .initialising env
      acc := some L.thread.token } R σ τ' := by
  have hleft : Side P.addr Q.addr Q.source L.thread L.out none := ha ▸ h.left
  obtain ⟨hp, hf⟩ : (L.thread.storeStream Q.source .initialising env).phase L.out = L.thread.phase L.out ∧
      (L.thread.storeStream Q.source .initialising env).flight L.out = L.thread.flight L.out :=
    hleft.old_storeStream (.inl rfl)
  obtain ⟨hnew, hhello⟩ : (L.thread.storeStream Q.source .initialising env).phase (some L.thread.token) =
        .inUse .initialising ∧
      (L.thread.storeStream Q.source .initialising env).flight (some L.thread.token) = [.hello L.thread.addr] :=
    NetworkThread.new_storeStream
  have hforth : σ.Holds P.addr Q.addr P.id ((L.thread.storeStream Q.source .initialising env).phase L.out)
      (R.thread.phase R.acc) (R.thread.flight R.acc)
      ((L.thread.storeStream Q.source .initialising env).flight L.out) := by
    rw [hp, hf]
    exact h.forth
  rw [h.left.addr] at hhello
  have hside := hleft.storeAccepted (Ne.symm Q.source_ne) env
  have hback := h.back
  rcases hτ with ⟨rfl, rfl⟩ | ⟨rfl, rfl⟩
  · exact h.advance rfl rfl hside h.right hforth ⟨hback.1, hnew, hhello, hback.2.2⟩
      (fits_of h.fits (by cases σ <;> decide) (by cases σ <;> decide)) Iff.rfl (by decide) id (by decide)
  · exact h.advance rfl rfl hside h.right hforth ⟨hback.1, hnew, .inl hback.2.2⟩
      (fits_of h.fits (by cases σ <;> decide) (by cases σ <;> decide)) Iff.rfl (by decide) id (by decide)

theorem Joint.accept {taken : Nat → Nat} (h : Joint P Q L R σ τ)
    (hs : stepAt P Q L R (.accept taken) = some (L', R')) : ∃ σ' τ', Joint P Q L' R' σ' τ' := by
  simp only [stepAt] at hs
  split at hs
  · rename_i hra
    obtain ⟨hr, ha⟩ := hra
    have hleft : Side P.addr Q.addr Q.source L.thread L.out none := ha ▸ h.left
    obtain ⟨t', ht, hs⟩ := Option.map_eq_some_iff.mp hs
    obtain ⟨rfl, rfl⟩ := Prod.mk.inj hs
    obtain ⟨-, rfl⟩ := NetworkThread.step_accept ht
    rw [hleft.accept rfl, if_neg NetworkThread.token_storeStream_ne]
    have hback := h.back
    rw [ha] at hback
    cases τ with
    | idle =>
      rw [phase_absent hback.1] at hr
      cases hr
    | opened => exact ⟨σ, .greeted, h.greeted ha (.inl ⟨rfl, rfl⟩)⟩
    | unaccepted => exact ⟨σ, .waiting, h.greeted ha (.inr ⟨rfl, rfl⟩)⟩
    | dead => cases hback.2
    | _ => cases hback.2.1
  · cases hs

/-! ## Frames are read -/

variable {i j : Nat} {f : NetFrame α} {rest : List (NetFrame α)} {t' : NetworkThread α}

/-- A frame is read on the channel that the thread has requested. -/
theorem Joint.readOut (h : Joint P Q L R σ τ) (hout : L.out = some i) (hacc : R.acc = some j)
    (hi : i ∈ L.thread.tokenMap) (hw : (R.thread.channel j).written = f :: rest)
    (hs : L.thread.handleFrame i f env = some t') :
    ∃ σ' τ', Joint P Q { L with thread := t' } (R.take j) σ' τ' := by
  obtain ⟨hright, hphase, hother, htook⟩ := h.right.take hw
  rw [← hacc] at hother htook
  have hback : τ.Holds Q.addr P.addr Q.id ((R.take j).thread.phase R.out) (L.thread.phase L.acc)
      (L.thread.flight L.acc) ((R.take j).thread.flight R.out) := by
    have hne : R.out ≠ R.acc := fun he => h.right.ne j (he.trans hacc) hacc
    rw [Half.take, hphase, hother _ hne]
    exact h.back
  have hforth := h.forth
  rw [htook, ← hphase, hout, NetworkThread.phase_polled hi, ← hout] at hforth
  have hleft : Side P.addr Q.addr Q.source L.thread (some i) L.acc := hout ▸ h.left
  cases σ with
  | idle => cases hforth.1
  | opened =>
    have := phase_absent hforth.2.1
    rw [hacc] at this
    cases this
  | greeted =>
    obtain ⟨hreq, hini, htoReq, htoAcc⟩ := hforth
    obtain ⟨rfl, hnil⟩ := List.cons.inj htoReq
    obtain rfl := Option.some.inj hs
    obtain ⟨h1, h2, h3, h4⟩ := hleft.hello hi (Phase.inUse.inj hreq) env
    refine ⟨.started, τ, h.advance rfl rfl (hout ▸ h1) hright ⟨?_, hini, hnil, ?_⟩ ?_
      (fits_of h.fits (by cases τ <;> decide) (by cases τ <;> decide)) (by decide) Iff.rfl (by decide) id⟩
    · rw [hout]
      exact h3
    · rw [hout] at htoAcc ⊢
      rw [h4, htoAcc]
      rfl
    · rw [h2.phase, h2.flight]
      exact hback
  | started => cases hforth.2.2.1
  | acked =>
    obtain ⟨hreq, hcon, ⟨fs, htoReq, hfs⟩, htoAcc⟩ := hforth
    obtain ⟨rfl, hrest⟩ := List.cons.inj htoReq
    obtain ⟨t₁, hack, h1, h2, h3, h4⟩ := hleft.ack hi (Phase.inUse.inj hreq) env
    obtain rfl := Option.some.inj (hack.symm.trans hs)
    refine ⟨.live, τ, h.advance rfl rfl (hout ▸ h1) hright ⟨?_, hcon, hrest ▸ hfs, ?_⟩ ?_
      (fits_of h.fits (by cases τ <;> decide) (by cases τ <;> decide)) (by decide) Iff.rfl (by decide) id⟩
    · rw [hout]
      exact h3
    · rw [hout] at htoAcc ⊢
      rw [h4, htoAcc]
      exact fun f hf => by cases hf
    · rw [h2.phase, h2.flight]
      exact hback
  | live =>
    obtain ⟨hreq, hcon, htoReq, htoAcc⟩ := hforth
    obtain ⟨msg, rfl⟩ := htoReq f List.mem_cons_self
    obtain ⟨h1, h2⟩ := h.left.data hi hs
    refine ⟨.live, τ, h.advance rfl rfl h1 hright
      ⟨?_, hcon, fun f hf => htoReq f (List.mem_cons_of_mem _ hf), ?_⟩ ?_ h.fits Iff.rfl Iff.rfl id id⟩
    · rw [(h2 _).phase, hout, NetworkThread.phase_polled hi]
      exact hreq
    · rw [(h2 _).flight]
      exact htoAcc
    · rw [(h2 _).phase, (h2 _).flight]
      exact hback
  | refused => cases hforth.2.2
  | unaccepted => cases hforth.1
  | waiting => cases hforth.1
  | dead => cases hforth.1

/-- The frame read on the accepted channel is taken from the stream. -/
theorem Joint.taken (h : Joint P Q L R σ τ) (hout : R.out = some j) (hw : (R.thread.channel j).written = f :: rest) :
    Side Q.addr P.addr P.source (R.take j).thread R.out R.acc ∧
      (∀ e, (R.take j).thread.phase e = R.thread.phase e) ∧
      (R.take j).thread.flight R.acc = R.thread.flight R.acc ∧
      R.thread.flight R.out = f :: (R.take j).thread.flight R.out := by
  obtain ⟨hright, hphase, hother, htook⟩ := h.right.take hw
  exact ⟨hright, hphase, hother _ (h.right.ne j hout), hout ▸ htook⟩

section

variable {τ' : Stage} (h : Joint P Q L R σ τ) (hacc : L.acc = some i) (hi : i ∈ L.thread.tokenMap)
  (hst : (L.thread.channel i).state = .initialising) (hout : R.out = some j)
  (hw : (R.thread.channel j).written = f :: rest)
include h hacc hi hst hout hw

/-- `Start` arrives, and the thread has no channel of its own. -/
theorem Joint.start_alone (hσ : σ = .idle) (hτ : τ = .started) (hretry : env.retriesLeft = true)
    (hs : L.thread.handleFrame i (.start Q.addr Q.id) env = some t') :
    Joint P Q { L with thread := t' } (R.take j) .idle .acked := by
  subst hσ hτ
  obtain ⟨hright, hphase, hflight, htook⟩ := h.taken hout hw
  have hleft : Side P.addr Q.addr Q.source L.thread L.out (some i) := hacc ▸ h.left
  obtain ⟨hreq, -, htoReq, htoAcc⟩ := h.back
  rw [htook] at htoAcc
  have hidle : (L.thread.phase L.out).isInUse = false := by
    rw [h.forth.1]
    rfl
  obtain ⟨t₁, hs₁, h1, h2, h3, h4⟩ := hleft.start_alone (Ne.symm Q.source_ne) hi hst hidle hretry
  obtain rfl := Option.some.inj (hs₁.symm.trans hs)
  refine h.advance rfl rfl (hacc ▸ h1) hright ?_ ⟨?_, ?_, ⟨[], ?_, (fun f hf => by cases hf)⟩, (List.cons.inj htoAcc).2⟩
    (fits_of h.fits (by decide) (by decide)) Iff.rfl (by decide) id (by decide)
  · exact ⟨h2.phase.trans h.forth.1, (hphase _).trans h.forth.2⟩
  · exact (hphase _).trans hreq
  · rw [hacc]
    exact h3
  · rw [hacc] at htoReq ⊢
    rw [h4, htoReq]
    rfl

/-- `Start` arrives, and the thread keeps its own channel. -/
theorem Joint.start_refused {k : Nat} (hτ : (τ = .started ∧ τ' = .refused) ∨ (τ = .waiting ∧ τ' = .dead))
    (hfits : Fits P Q σ τ' = true) (hk : L.out = some k) (hkm : k ∈ L.thread.tokenMap)
    (hkeep : (∃ a x, (L.thread.channel k).state = .connected a x ∧ (L.thread.channel k).messages = 0) ∨
      ∃ a x, ((L.thread.channel k).state = .requested a x ∨ (L.thread.channel k).state = .initialised a x) ∧
        Q.id.asU128 < x.asU128)
    (herr : env.error = false) (hs : L.thread.handleFrame i (.start Q.addr Q.id) env = some t') :
    Joint P Q { L with thread := t' } (R.take j) σ τ' := by
  obtain ⟨hright, hphase, hflight, htook⟩ := h.taken hout hw
  have hleft : Side P.addr Q.addr Q.source L.thread L.out (some i) := hacc ▸ h.left
  obtain ⟨t₁, hs₁, h1, h2, h3, h4⟩ := hleft.start_refused (Ne.symm Q.source_ne) hi hst hk hkm herr hkeep
  obtain rfl := Option.some.inj (hs₁.symm.trans hs)
  have hforth : σ.Holds P.addr Q.addr P.id (t₁.phase L.out) ((R.take j).thread.phase R.acc)
      ((R.take j).thread.flight R.acc) (t₁.flight L.out) := by
    rw [h2.phase, h2.flight, hphase, hflight]
    exact h.forth
  have hback := h.back
  rw [← hphase] at hback
  rcases hτ with ⟨rfl, rfl⟩ | ⟨rfl, rfl⟩
  · obtain ⟨hreq, -, htoReq, -⟩ := hback
    refine h.advance rfl rfl (hacc ▸ h1) hright hforth ⟨hreq, ?_, ?_⟩ hfits Iff.rfl (by decide) id (by decide)
    · rw [hacc]
      exact h3
    · rw [hacc, NetworkThread.flight_polled hi] at htoReq
      rw [hacc, h4]
      exact (List.append_eq_nil_iff.mp htoReq).1
  · refine h.advance rfl rfl (hacc ▸ h1) hright hforth ⟨hback.1, ?_⟩ hfits Iff.rfl (by decide) id (by decide)
    rw [hacc]
    exact h3

/-- `Start` arrives, and the thread drops its own channel. -/
theorem Joint.start_merged {k : Nat} {σ' : Stage} (hτ : τ = .started)
    (hσ : (σ = .opened ∧ σ' = .unaccepted) ∨ ((σ = .greeted ∨ σ = .started) ∧ σ' = .waiting) ∨
      (σ = .refused ∧ σ' = .dead))
    (hfits : Fits P Q σ' .acked = true) (hk : L.out = some k) (hkm : k ∈ L.thread.tokenMap)
    (hlose : ∃ a x, ((L.thread.channel k).state = .requested a x ∨ (L.thread.channel k).state = .initialised a x) ∧
      ¬ Q.id.asU128 < x.asU128)
    (herr : env.error = false) (hretry : env.retriesLeft = true) (hr : L.thread.reading = some i)
    (hs : L.thread.handleFrame i (.start Q.addr Q.id) env = some t') :
    Joint P Q { L with thread := t' } (R.take j) σ' .acked := by
  subst hτ
  obtain ⟨hright, hphase, hflight, htook⟩ := h.taken hout hw
  have hleft : Side P.addr Q.addr Q.source L.thread L.out (some i) := hacc ▸ h.left
  obtain ⟨t₁, hs₁, h1, hgone, hwritten, h3, h4⟩ :=
    hleft.start_merged (Ne.symm Q.source_ne) hi hst hk hkm herr hr hretry hlose
  obtain rfl := Option.some.inj (hs₁.symm.trans hs)
  obtain ⟨hreq, -, htoReq, htoAcc⟩ := h.back
  rw [htook] at htoAcc
  have hback : Stage.acked.Holds Q.addr P.addr Q.id ((R.take j).thread.phase R.out) (t₁.phase L.acc)
      (t₁.flight L.acc) ((R.take j).thread.flight R.out) := by
    refine ⟨(hphase _).trans hreq, ?_, ⟨[], ?_, (fun f hf => by cases hf)⟩, (List.cons.inj htoAcc).2⟩
    · rw [hacc]
      exact h3
    · rw [hacc] at htoReq ⊢
      rw [h4, htoReq]
      rfl
  -- what the channel had written is the beginning of what it had to send
  have hsent : ∃ fs, L.thread.flight L.out = t₁.flight L.out ++ fs := by
    rw [hwritten, hk, NetworkThread.flight_polled hkm]
    exact ⟨_, rfl⟩
  obtain ⟨fs, hsent⟩ := hsent
  have hforth := h.forth
  rw [hsent, ← hphase] at hforth
  rcases hσ with ⟨rfl, rfl⟩ | ⟨rfl | rfl, rfl⟩ | ⟨rfl, rfl⟩
  · exact h.advance rfl rfl (hacc ▸ h1) hright ⟨hgone, hforth.2.1, (List.append_eq_nil_iff.mp hforth.2.2).1⟩ hback hfits
      (by decide) (by decide) (by decide) (by decide)
  · exact h.advance rfl rfl (hacc ▸ h1) hright
      ⟨hgone, hforth.2.1, .inl (List.append_eq_nil_iff.mp hforth.2.2.2).1⟩ hback hfits
      (by decide) (by decide) (by decide) (by decide)
  · refine h.advance rfl rfl (hacc ▸ h1) hright ⟨hgone, hforth.2.1, ?_⟩ hback hfits
      (by decide) (by decide) (by decide) (by decide)
    rcases List.append_eq_singleton_iff.mp hforth.2.2.2 with hnil | hone
    · exact .inl hnil.1
    · exact .inr hone.1
  · exact h.advance rfl rfl (hacc ▸ h1) hright ⟨hgone, hforth.2.1⟩ hback hfits
      (by decide) (by decide) (by decide) (by decide)

end

/-- `Start` arrives: which channel makes way is decided by the stages and the ids. -/
theorem Joint.readStart (h : Joint P Q L R σ τ) (hacc : L.acc = some i) (hi : i ∈ L.thread.tokenMap)
    (hst : (L.thread.channel i).state = .initialising) (hout : R.out = some j)
    (hw : (R.thread.channel j).written = f :: rest) (hτ : τ = .started ∨ τ = .waiting)
    (hcalm : ∀ k ∈ L.thread.addressMap.lookup Q.addr,
      (L.thread.channel k).connected = true → (L.thread.channel k).messages = 0)
    (herr : env.error = false) (hretry : env.retriesLeft = true) (hr : L.thread.reading = some i)
    (hs : L.thread.handleFrame i (.start Q.addr Q.id) env = some t') :
    ∃ σ' τ', Joint P Q { L with thread := t' } (R.take j) σ' τ' := by
  have hforth := h.forth
  by_cases hlt : Q.id.asU128 < P.id.asU128
  · have hfits : Compatible σ τ = true := by
      have := h.fits
      rwa [Fits, if_pos hlt] at this
    -- the own stream has the greater id: it is kept, if there is one
    have hrefused : ∀ {st τ'}, L.thread.phase L.out = .inUse st →
        ((τ = .started ∧ τ' = .refused) ∨ (τ = .waiting ∧ τ' = .dead)) → Compatible σ τ' = true →
        (st = .requested Q.addr P.id ∨ st = .initialised Q.addr P.id ∨ st = .connected Q.addr P.id) →
        ∃ σ' τ', Joint P Q { L with thread := t' } (R.take j) σ' τ' := by
      intro st τ' hp hτ' hc hcase
      obtain ⟨k, hk, hkm, hks⟩ := NetworkThread.phase_inUse hp
      refine ⟨σ, τ', h.start_refused hacc hi hst hout hw hτ' ((if_pos hlt).trans hc) hk hkm ?_ herr hs⟩
      rcases hcase with rfl | rfl | rfl
      · exact .inr ⟨_, _, .inl hks, hlt⟩
      · exact .inr ⟨_, _, .inr hks, hlt⟩
      · refine .inl ⟨_, _, hks, hcalm k ?_ (congrArg ChannelState.isConnected hks)⟩
        rw [h.left.atPeer, hp]
        exact hk
    rcases hτ with rfl | rfl
    · cases σ with
      | idle => exact ⟨_, _, h.start_alone hacc hi hst hout hw rfl rfl hretry hs⟩
      | opened => exact hrefused hforth.1 (.inl ⟨rfl, rfl⟩) rfl (.inl rfl)
      | greeted => exact hrefused hforth.1 (.inl ⟨rfl, rfl⟩) rfl (.inl rfl)
      | started => exact hrefused hforth.1 (.inl ⟨rfl, rfl⟩) rfl (.inr (.inl rfl))
      | _ => cases hfits
    · cases σ with
      | acked => exact hrefused hforth.1 (.inr ⟨rfl, rfl⟩) rfl (.inr (.inl rfl))
      | live => exact hrefused hforth.1 (.inr ⟨rfl, rfl⟩) rfl (.inr (.inr rfl))
      | _ => cases hfits
  · have hfits : Compatible τ σ = true := by
      have := h.fits
      rwa [Fits, if_neg hlt] at this
    -- the own stream has the smaller id: it makes way
    have hmerged : ∀ {st σ'}, τ = .started → L.thread.phase L.out = .inUse st →
        ((σ = .opened ∧ σ' = .unaccepted) ∨ ((σ = .greeted ∨ σ = .started) ∧ σ' = .waiting) ∨
          (σ = .refused ∧ σ' = .dead)) → Compatible .acked σ' = true →
        (st = .requested Q.addr P.id ∨ st = .initialised Q.addr P.id) →
        ∃ σ' τ', Joint P Q { L with thread := t' } (R.take j) σ' τ' := by
      intro st σ' hτ' hp hσ' hc hcase
      obtain ⟨k, hk, hkm, hks⟩ := NetworkThread.phase_inUse hp
      refine ⟨σ', .acked, h.start_merged hacc hi hst hout hw hτ' hσ' ((if_neg hlt).trans hc) hk hkm
        ⟨Q.addr, P.id, ?_, hlt⟩ herr hretry hr hs⟩
      rcases hcase with rfl | rfl
      · exact .inl hks
      · exact .inr hks
    rcases hτ with rfl | rfl
    · cases σ with
      | idle => exact ⟨_, _, h.start_alone hacc hi hst hout hw rfl rfl hretry hs⟩
      | opened => exact hmerged rfl hforth.1 (.inl ⟨rfl, rfl⟩) rfl (.inl rfl)
      | greeted => exact hmerged rfl hforth.1 (.inr (.inl ⟨.inl rfl, rfl⟩)) rfl (.inl rfl)
      | started => exact hmerged rfl hforth.1 (.inr (.inl ⟨.inr rfl, rfl⟩)) rfl (.inr rfl)
      | refused => exact hmerged rfl hforth.1 (.inr (.inr ⟨rfl, rfl⟩)) rfl (.inr rfl)
      | _ => cases hfits
    · cases hfits

/-- A frame is read on the channel that the thread has accepted. -/
theorem Joint.readAcc (h : Joint P Q L R σ τ) (hacc : L.acc = some i) (hout : R.out = some j)
    (hi : i ∈ L.thread.tokenMap) (hw : (R.thread.channel j).written = f :: rest)
    (hcalm : ∀ x, f = .start Q.addr x → ∀ k ∈ L.thread.addressMap.lookup Q.addr,
      (L.thread.channel k).connected = true → (L.thread.channel k).messages = 0)
    (herr : env.error = false) (hretry : env.retriesLeft = true) (hr : L.thread.reading = some i)
    (hs : L.thread.handleFrame i f env = some t') :
    ∃ σ' τ', Joint P Q { L with thread := t' } (R.take j) σ' τ' := by
  obtain ⟨hright, hphase, hflight, htook⟩ := h.taken hout hw
  have hback := h.back
  rw [htook, hacc, NetworkThread.phase_polled hi] at hback
  cases τ with
  | idle => cases hback.2
  | opened => cases hback.2.1
  | greeted => cases hback.2.2.2
  | started =>
    obtain ⟨-, hst, -, htoAcc⟩ := hback
    obtain ⟨rfl, -⟩ := List.cons.inj htoAcc
    exact h.readStart hacc hi (Phase.inUse.inj hst) hout hw (.inl rfl) (hcalm _ rfl) herr hretry hr hs
  | acked => cases hback.2.2.2
  | live =>
    obtain ⟨hreq, hcon, htoReq, htoAcc⟩ := hback
    obtain ⟨msg, rfl⟩ := htoAcc f List.mem_cons_self
    obtain ⟨h1, h2⟩ := h.left.data hi hs
    have hforth : σ.Holds P.addr Q.addr P.id (t'.phase L.out) ((R.take j).thread.phase R.acc)
        ((R.take j).thread.flight R.acc) (t'.flight L.out) := by
      rw [(h2 _).phase, (h2 _).flight, hphase, hflight]
      exact h.forth
    refine ⟨σ, .live, h.advance rfl rfl h1 hright hforth
      ⟨(hphase _).trans hreq, ?_, ?_, fun f hf => htoAcc f (List.mem_cons_of_mem _ hf)⟩ h.fits Iff.rfl Iff.rfl id id⟩
    · rw [(h2 _).phase, hacc, NetworkThread.phase_polled hi]
      exact hcon
    · rw [(h2 _).flight, hacc]
      exact htoReq
  | refused => cases hback.2.1
  | unaccepted => cases hback.2.1
  | waiting =>
    obtain ⟨-, hst, htoAcc⟩ := hback
    rcases htoAcc with htoAcc | htoAcc
    · cases htoAcc
    · obtain ⟨rfl, -⟩ := List.cons.inj htoAcc
      exact h.readStart hacc hi (Phase.inUse.inj hst) hout hw (.inr rfl) (hcalm _ rfl) herr hretry hr hs
  | dead => cases hback.2

theorem Joint.read {taken : Nat → Nat} (h : Joint P Q L R σ τ) (hc : CalmAt L R (.read taken))
    (hs : stepAt P Q L R (.read taken) = some (L', R')) : ∃ σ' τ', Joint P Q L' R' σ' τ' := by
  obtain ⟨⟨j, f⟩, hnext, hs⟩ := Option.bind_eq_some_iff.mp hs
  obtain ⟨t', ht, hs⟩ := Option.map_eq_some_iff.mp hs
  obtain ⟨rfl, rfl⟩ := Prod.mk.inj hs
  have hcalm := hc _ hnext
  obtain ⟨i, hr, hnext⟩ := Option.bind_eq_some_iff.mp hnext
  obtain ⟨j', hj, hnext⟩ := Option.bind_eq_some_iff.mp hnext
  obtain ⟨f', hf, hjf⟩ := Option.bind_eq_some_iff.mp hnext
  obtain ⟨rfl, rfl⟩ := Prod.mk.inj (Option.some.inj hjf)
  obtain ⟨rest, hw⟩ := List.head?_eq_some_iff.mp hf
  have hi : i ∈ L.thread.tokenMap := h.left.reading i hr
  simp only [NetworkThread.step, hr, Option.bind_some] at ht
  unfold otherEnd at hj
  split at hj
  · rename_i hout
    exact h.readOut hout hj hi hw ht
  · split at hj
    · rename_i hacc
      refine h.readAcc hacc hj hi hw (fun x hx => ?_) rfl rfl hr ht
      subst hx
      exact hcalm
    · cases hj

/-- One thread takes a step. -/
theorem Joint.stepAt {act : Act α} (h : Joint P Q L R σ τ) (hc : CalmAt L R act)
    (hs : MutualConnect.stepAt P Q L R act = some (L', R')) : ∃ σ' τ', Joint P Q L' R' σ' τ' := by
  cases act with
  | connect taken => exact h.connect hs
  | accept taken => exact h.accept hs
  | read taken => exact h.read hc hs
  | send msg =>
    obtain ⟨t', ht, hs⟩ := Option.map_eq_some_iff.mp hs
    obtain ⟨rfl, rfl⟩ := Prod.mk.inj hs
    obtain ⟨-, -, rfl⟩ := NetworkThread.receiveDispatch_some ht
    exact ⟨σ, τ, h.send msg⟩
  | write i taken =>
    obtain ⟨t', ht, hs⟩ := Option.map_eq_some_iff.mp hs
    obtain ⟨rfl, rfl⟩ := Prod.mk.inj hs
    obtain ⟨-, hi, rfl⟩ := NetworkThread.step_write ht
    exact ⟨σ, τ, h.write hi⟩
  | beginRead i =>
    obtain ⟨t', ht, hs⟩ := Option.map_eq_some_iff.mp hs
    obtain ⟨rfl, rfl⟩ := Prod.mk.inj hs
    obtain ⟨-, hi, rfl⟩ := NetworkThread.step_beginRead ht
    exact ⟨σ, τ, h.beginRead hi⟩
  | endRead =>
    obtain ⟨t', ht, hs⟩ := Option.map_eq_some_iff.mp hs
    obtain ⟨rfl, rfl⟩ := Prod.mk.inj hs
    obtain ⟨i, -, rfl⟩ := Option.map_eq_some_iff.mp ht
    exact ⟨σ, τ, h.quiet h.left.endRead (fun e => ⟨rfl, rfl⟩)⟩

/-! ## Runs -/

variable {m : Bool → Party} {s s' : Bool → Half α} {soft hard : Nat}

/-- The invariant, with either thread on the left. -/
def Joined (m : Bool → Party) (s : Bool → Half α) : Prop :=
  ∀ p, ∃ σ τ, Joint (m p) (m !p) (s p) (s !p) σ τ

theorem joined_of {p : Bool} (hne : (m true).id ≠ (m false).id) (h : Joint (m p) (m !p) (s p) (s !p) σ τ) :
    Joined m s := by
  have hids : (m p).id.asU128 ≠ (m !p).id.asU128 := by
    intro he
    have := SessionId.asU128_inj he
    cases p with
    | true => exact hne this
    | false => exact hne this.symm
  intro q
  by_cases hq : q = p
  · subst hq
    exact ⟨σ, τ, h⟩
  · obtain rfl : q = !p := Bool.eq_not_of_ne hq
    have hs := h.symm hids
    rw [← Bool.not_not p] at hs
    simp only [Bool.not_not] at hs ⊢
    exact ⟨τ, σ, hs⟩

theorem Joined.step {a : Bool × Act α} (hne : (m true).id ≠ (m false).id) (h : Joined m s) (hc : Calm s a)
    (hs : MutualConnect.step m s a = some s') : Joined m s' := by
  obtain ⟨p, act⟩ := a
  obtain ⟨⟨L', R'⟩, hat, rfl⟩ := Option.map_eq_some_iff.mp hs
  obtain ⟨σ, τ, hj⟩ := h p
  obtain ⟨σ', τ', hj'⟩ := hj.stepAt hc hat
  refine joined_of (p := p) hne (σ := σ') (τ := τ') ?_
  simp only [if_true, Bool.not_eq_self, if_false]
  exact hj'

theorem joined_init (hne : (m true).id ≠ (m false).id) (hs : 2 ≤ soft) (hh : 2 ≤ hard) :
    Joined m (init m soft hard : Bool → Half α) := by
  have hside : ∀ p q, Side (m p).addr (m q).addr (m q).source (init m soft hard p : Half α).thread none none := by
    intro p q
    exact ⟨rfl, rfl, hs, hh, List.nodup_nil, (fun i hi => by cases hi),
      (fun i hi => by rcases hi with hi | hi <;> cases hi), (fun i hi => by cases hi), (fun i hi => by cases hi),
      (fun i hi => by cases hi), (fun i hi => by cases hi), rfl, rfl⟩
  refine joined_of (p := true) hne (σ := .idle) (τ := .idle) ?_
  refine ⟨hside _ _, hside _ _, ⟨rfl, rfl⟩, ⟨rfl, rfl⟩, ?_, (fun _ => rfl), (fun _ => rfl), (fun hp => by cases hp),
    (fun hp => by cases hp)⟩
  unfold Fits
  split
  · rfl
  · rfl

/-! ## Quiescent states -/

/-- Nothing is left to do for the thread: it has been asked to connect, its stream is accepted, it handles no
event, and no frame is on its way to a channel that it polls. -/
structure QuietAt (L R : Half α) : Prop where
  asked : L.pending = false
  accepted : L.out.isSome → R.acc.isSome
  reading : L.thread.reading = none
  delivered : ∀ i ∈ L.thread.tokenMap, R.thread.flight (otherEnd L R i) = []

def Quiescent (s : Bool → Half α) : Prop := ∀ p, QuietAt (s p) (s !p)

/-- The channel that is registered for the peer is connected, and the only one with that address. -/
structure Registered (t : NetworkThread α) (peer : SocketAddr) (i : Nat) (id : SessionId) : Prop where
  lookup : t.addressMap.lookup peer = some i
  polled : i ∈ t.tokenMap
  state : (t.channel i).state = .connected peer id
  unique : ∀ k ∈ t.tokenMap, (t.channel k).address = peer → k = i

/-- The threads are left with the two ends of the stream that one of them has requested. -/
def Agree (m : Bool → Party) (s : Bool → Half α) : Prop :=
  ∃ p, ∃ i ∈ (s p).out, ∃ j ∈ (s !p).acc,
    Registered (s p).thread (m !p).addr i (m p).id ∧ Registered (s !p).thread (m p).addr j (m p).id

/-- No stream is half way when nothing is left to do. -/
theorem Joint.settled (h : Joint P Q L R σ τ) (hL : QuietAt L R) (hR : QuietAt R L) :
    σ ∈ [Stage.idle, .live, .refused, .waiting, .dead] := by
  have hforth := h.forth
  -- frames to the requesting end and to the accepting end have been delivered
  have htoReq : ∀ {st}, L.thread.phase L.out = .inUse st → R.thread.flight R.acc = [] := by
    intro st hp
    obtain ⟨i, hi, hm, -⟩ := NetworkThread.phase_inUse hp
    have hd := hL.delivered i hm
    rwa [otherEnd, if_pos hi] at hd
  have htoAcc : ∀ {st}, R.thread.phase R.acc = .inUse st → L.thread.flight L.out = [] := by
    intro st hp
    obtain ⟨j, hj, hm, -⟩ := NetworkThread.phase_inUse hp
    have hd := hR.delivered j hm
    rwa [otherEnd, if_neg (fun ho => h.right.ne j ho hj), if_pos hj] at hd
  have haccepted : R.thread.phase R.acc = .absent → L.thread.phase L.out = .absent := by
    intro hp
    have ha := hL.accepted
    rw [phase_absent hp] at ha
    cases ho : L.out with
    | none => rfl
    | some i =>
      rw [ho] at ha
      cases ha rfl
  cases σ with
  | opened =>
    have ha := haccepted hforth.2.1
    rw [hforth.1] at ha
    cases ha
  | greeted =>
    have hd := htoReq hforth.1
    rw [hforth.2.2.1] at hd
    cases hd
  | started =>
    have hd := htoAcc hforth.2.1
    rw [hforth.2.2.2] at hd
    cases hd
  | acked =>
    obtain ⟨hreq, -, ⟨fs, htr, -⟩, -⟩ := hforth
    have hd := htoReq hreq
    rw [htr] at hd
    cases hd
  | unaccepted =>
    have ha := haccepted hforth.2.1
    rw [hforth.1] at ha
    cases ha
  | _ => decide

/-- Of two streams that are not half way at most one is live. -/
theorem Compatible.settled (hσ : σ ∈ [Stage.idle, .live, .refused, .waiting, .dead])
    (hτ : τ ∈ [Stage.idle, .live, .refused, .waiting, .dead]) (h : Compatible σ τ = true) :
    (σ = .idle ∧ τ = .idle) ∨ (σ = .live ∧ τ ∈ [Stage.idle, .waiting, .dead]) ∨ (σ = .idle ∧ τ = .live) := by
  cases σ with
  | idle => revert hτ h; cases τ <;> decide
  | live => revert hτ h; cases τ <;> decide
  | refused => cases h
  | waiting => cases h
  | dead => cases h
  | _ => simp at hσ

/-- One of the streams is live and the other one is not. -/
theorem Joint.oneLive (h : Joint P Q L R σ τ) (hne : P.id.asU128 ≠ Q.id.asU128) (hL : QuietAt L R)
    (hR : QuietAt R L) :
    (σ = .live ∧ τ ∈ [Stage.idle, .waiting, .dead]) ∨ (τ = .live ∧ σ ∈ [Stage.idle, .waiting, .dead]) := by
  have hσ := h.settled hL hR
  have hτ := (h.symm hne).settled hR hL
  have hidle : ¬ (σ = .idle ∧ τ = .idle) := by
    rintro ⟨rfl, rfl⟩
    cases h.leftIdle hL.asked rfl
  have hfits := h.fits
  unfold Fits at hfits
  split at hfits
  · rcases Compatible.settled hσ hτ hfits with hi | hl | ⟨rfl, rfl⟩
    · exact absurd hi hidle
    · exact .inl hl
    · exact .inr ⟨rfl, List.mem_cons_self⟩
  · rcases Compatible.settled hτ hσ hfits with hi | hl | ⟨rfl, rfl⟩
    · exact absurd hi.symm hidle
    · exact .inr hl
    · exact .inl ⟨rfl, List.mem_cons_self⟩

theorem Joint.registered (h : Joint P Q L R .live τ) (hτ : τ ∈ [Stage.idle, .waiting, .dead]) :
    ∃ i ∈ L.out, ∃ j ∈ R.acc, Registered L.thread Q.addr i P.id ∧ Registered R.thread P.addr j P.id := by
  obtain ⟨hreq, hcon, -, -⟩ := h.forth
  obtain ⟨i, hi, him, his⟩ := NetworkThread.phase_inUse hreq
  obtain ⟨j, hj, hjm, hjs⟩ := NetworkThread.phase_inUse hcon
  -- the other stream has no requesting end, and an accepting end only under another address
  have hother : (R.thread.phase R.out).isInUse = false ∧
      (L.thread.phase L.acc = .inUse .initialising ∨ (L.thread.phase L.acc).isInUse = false) := by
    have hback := h.back
    cases τ with
    | idle => rw [hback.1, hback.2]; exact ⟨rfl, .inr rfl⟩
    | waiting => rw [hback.1, hback.2.1]; exact ⟨rfl, .inl rfl⟩
    | dead => rw [hback.1, hback.2]; exact ⟨rfl, .inr rfl⟩
    | _ => simp at hτ
  refine ⟨i, hi, j, hj, ⟨?_, him, his, fun k hk ha => ?_⟩, ⟨?_, hjm, hjs, fun k hk _ => ?_⟩⟩
  · rw [h.left.atPeer, hreq]
    exact hi
  · rcases h.left.ends k hk with he | he
    · exact Option.some.inj (he.symm.trans hi)
    · have hp := NetworkThread.phase_polled hk
      rw [← he] at hp
      rcases hother.2 with hini | hnot
      · rw [hini] at hp
        have hs := h.left.accepted k he hk (Phase.inUse.inj hp).symm
        exact absurd (hs.symm.trans ha) Q.source_ne
      · rw [hp] at hnot
        cases hnot
  · rw [h.right.atPeer, hother.1, hcon]
    exact hj
  · rcases h.right.ends k hk with he | he
    · have hp := NetworkThread.phase_polled hk
      rw [← he] at hp
      rw [hp] at hother
      cases hother.1
    · exact Option.some.inj (he.symm.trans hj)

/-- Whatever the order of the steps, if no `Start` finds a channel that has received messages, the threads
agree on one stream. -/
theorem agree_of_calm (hne : (m true).id ≠ (m false).id) (hsoft : 2 ≤ soft) (hhard : 2 ≤ hard)
    (h : Reach (step m) Calm (init m soft hard) s) (hq : Quiescent s) : Agree m s := by
  have hinv : Joined m s :=
    Reach.invariant (Joined m) (joined_init hne hsoft hhard) (fun h hc hs => h.step hne hc hs) h
  obtain ⟨σ, τ, hj⟩ := hinv true
  have hids : (m true).id.asU128 ≠ (m false).id.asU128 := fun he => hne (SessionId.asU128_inj he)
  rcases hj.oneLive hids (hq true) (hq false) with ⟨rfl, hτ⟩ | ⟨rfl, hσ⟩
  · exact ⟨true, hj.registered hτ⟩
  · exact ⟨false, (hj.symm hids).registered hσ⟩

instance (L R : Half α) (act : Act α) : Decidable (CalmAt L R act) :=
  match act with
  | .read _ =>
    match hn : nextFrame L R with
    | none => isTrue (fun jf hjf => by rw [hn] at hjf; cases hjf)
    | some (j, .start addr id) =>
      decidable_of_iff (∀ k ∈ L.thread.addressMap.lookup addr,
        (L.thread.channel k).connected = true → (L.thread.channel k).messages = 0)
        (by simp [CalmAt, hn])
    | some (_, .hello _) | some (_, .ack) | some (_, .data _) | some (_, .bye) =>
      isTrue (fun jf hjf => by rw [hn] at hjf; obtain rfl := Option.some.inj hjf; trivial)
  | .connect _ | .accept _ | .send _ | .write _ _ | .beginRead _ | .endRead => isTrue trivial

instance (s : Bool → Half α) (a : Bool × Act α) : Decidable (Calm s a) :=
  inferInstanceAs (Decidable (CalmAt (s a.1) (s !a.1) a.2))

instance [DecidableEq α] (L R : Half α) : Decidable (QuietAt L R) :=
  decidable_of_iff (L.pending = false ∧ (L.out.isSome → R.acc.isSome) ∧ L.thread.reading = none ∧
    ∀ i ∈ L.thread.tokenMap, R.thread.flight (otherEnd L R i) = [])
    ⟨fun ⟨h1, h2, h3, h4⟩ => ⟨h1, h2, h3, h4⟩, fun h => ⟨h.asked, h.accepted, h.reading, h.delivered⟩⟩

instance [DecidableEq α] (s : Bool → Half α) : Decidable (Quiescent s) :=
  inferInstanceAs (Decidable (∀ p, QuietAt (s p) (s !p)))

theorem Agree.polled (h : Agree m s) (q : Bool) : (s q).thread.tokenMap ≠ [] := by
  obtain ⟨p, i, -, j, -, hp, hn⟩ := h
  by_cases hq : q = p
  · subst hq
    exact List.ne_nil_of_mem hp.polled
  · obtain rfl : q = !p := Bool.eq_not_of_ne hq
    exact List.ne_nil_of_mem hn.polled

/-- Two threads; the first one has the greater id. For examples. -/
def parties : Bool → Party
  | true => { addr := Dispatcher.localhost 1, source := Dispatcher.localhost 1001, id := ⟨2⟩, source_ne := by decide }
  | false => { addr := Dispatcher.localhost 2, source := Dispatcher.localhost 1002, id := ⟨1⟩, source_ne := by decide }

/-- The streams take all that there is, for examples. -/
def all (_ : Nat) : Nat := 10

/-- Both threads send a `Start`. The second one handles that of the first one, sends a message, and the first
one reads `Ack`; for examples. -/
def meeting : List (Bool × Act Nat) :=
  [(true, .connect all), (false, .connect all), (true, .accept all), (false, .accept all), (false, .beginRead 0),
    (false, .read all), (false, .endRead), (true, .beginRead 0), (true, .read all), (true, .endRead),
    (false, .beginRead 1), (false, .read all), (false, .send 7), (false, .write 1 all), (true, .beginRead 0),
    (true, .read all)]

/-- The first thread handles the other `Start` before the message. -/
theorem agree_of_calm_meeting :
    let run := meeting ++ [(true, .endRead), (true, .beginRead 1), (true, .read all), (true, .beginRead 0),
      (true, .read all), (true, .endRead)]
    ∃ h : (runActions (step parties) (init parties 2 2) run).isSome, Agree parties (Option.get _ h) :=
  ⟨by decide, agree_of_calm (by decide) (by decide) (by decide) (Reach.of_run _ (by decide) (by decide)) (by decide)⟩

/-- The message comes first: the first thread gives up the stream that the second one has kept, and keeps the one
that the second one has dropped. -/
theorem not_agree_used : ∃ s : Bool → Half Nat, Reach (step parties) (fun _ _ => True) (init parties 2 2) s ∧
    Quiescent s ∧ ¬ Agree parties s := by
  refine ⟨_, Reach.of_run (meeting ++ [(true, .read all), (true, .endRead), (true, .beginRead 1), (true, .read all),
    (false, .beginRead 1), (false, .read all)]) (by decide) (runMeets_true _ _), by decide, fun h => ?_⟩
  exact h.polled false (by decide)

end MutualConnect

end Kompact
