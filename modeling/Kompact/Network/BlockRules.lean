import Kompact.Network.Thread
import Mathlib.Data.Set.Basic

/-!
# The rules of a block list

A history of operations on the block list, the latest one first, determines
the rules (`BlockList.run`). What the rules are for is said on the history
alone: the last operation on a socket address decides, and without one the
blocked addresses do (`Blocks`).

The list follows this for a socket address as long as the last operation on it
did not find it among the addresses of the opposite kind (`lastDirect`): such an
operation only takes the old rule back. `blockList_semantics` says that this is
exactly when the answers are right however the IP rules change later.
-/

namespace Kompact

/-- An operation on the block list. -/
inductive BlockOp where
  | blockIpAddr (ip : IpAddr)
  | blockIpNet (net : IpNet)
  | allowIpAddr (ip : IpAddr)
  | allowIpNet (net : IpNet)
  | blockSocketAddr (addr : SocketAddr)
  | allowSocketAddr (addr : SocketAddr)
  deriving DecidableEq, Repr

namespace BlockOp

/-- The socket address the operation is on, and whether it blocks it. -/
def rule : BlockOp → Option (SocketAddr × Bool)
  | blockSocketAddr addr => some (addr, true)
  | allowSocketAddr addr => some (addr, false)
  | _ => none

/-- The operation is on IP addresses only. -/
def OnIps (op : BlockOp) : Prop := op.rule = none

theorem onIps_or (op : BlockOp) :
    op.OnIps ∨ (∃ addr, op = blockSocketAddr addr) ∨ ∃ addr, op = allowSocketAddr addr := by
  cases op with
  | blockSocketAddr addr => exact .inr (.inl ⟨addr, rfl⟩)
  | allowSocketAddr addr => exact .inr (.inr ⟨addr, rfl⟩)
  | _ => exact .inl rfl

/-- How the set of blocked IP addresses changes. -/
def changeIps (ips : Set IpAddr) : BlockOp → Set IpAddr
  | blockIpAddr ip => insert ip ips
  | blockIpNet net => {ip | net.contains ip = true} ∪ ips
  | allowIpAddr ip => ips \ {ip}
  | allowIpNet net => ips \ {ip | net.contains ip = true}
  | _ => ips

end BlockOp

/-! ## What the rules are for -/

/-- The blocked IP addresses after a history. -/
def blockedIps : List BlockOp → Set IpAddr
  | [] => ∅
  | op :: ops => op.changeIps (blockedIps ops)

/-- Whether the last operation on a socket address blocks it. -/
def lastRule (addr : SocketAddr) : List BlockOp → Option Bool
  | [] => none
  | op :: ops =>
    match op.rule with
    | some (a, blocks) => if a = addr then some blocks else lastRule addr ops
    | none => lastRule addr ops

/-- Whether a socket address is to be blocked after a history. -/
def Blocks (ops : List BlockOp) (addr : SocketAddr) : Prop :=
  match lastRule addr ops with
  | some blocks => blocks = true
  | none => addr.ip ∈ blockedIps ops

namespace BlockList

/-! ## What the code does -/

/-- What an operation returns, if anything, and the new rules. -/
def apply (b : BlockList) : BlockOp → Option Bool × BlockList
  | .blockIpAddr ip => (some (b.blockIpAddr ip).1, (b.blockIpAddr ip).2)
  | .blockIpNet net => (none, b.blockIpNet net)
  | .allowIpAddr ip => (some (b.allowIpAddr ip).1, (b.allowIpAddr ip).2)
  | .allowIpNet net => (none, b.allowIpNet net)
  | .blockSocketAddr addr => (some (b.blockSocketAddr addr).1, (b.blockSocketAddr addr).2)
  | .allowSocketAddr addr => (some (b.allowSocketAddr addr).1, (b.allowSocketAddr addr).2)

/-- The rules after a history. -/
def run : List BlockOp → BlockList
  | [] => new
  | op :: ops => ((run ops).apply op).2

/-- Two lists with the same rules: their sets have the same elements. -/
structure Same (b c : BlockList) : Prop where
  ips : ∀ ip, b.ipSet ip = c.ipSet ip
  blocked : ∀ addr, addr ∈ b.blockedSocketAddr ↔ addr ∈ c.blockedSocketAddr
  allowed : ∀ addr, addr ∈ b.allowedSocketAddr ↔ addr ∈ c.allowedSocketAddr

/-- The operation does not find its socket address among those of the opposite kind. -/
def direct (b : BlockList) : BlockOp → Bool
  | .blockSocketAddr addr => addr ∉ b.allowedSocketAddr
  | .allowSocketAddr addr => addr ∉ b.blockedSocketAddr
  | _ => true

/-- The last operation on a socket address, if there is one, was direct. -/
def lastDirect (addr : SocketAddr) : List BlockOp → Bool
  | [] => true
  | op :: ops =>
    match op.rule with
    | some (a, _) => if a = addr then (run ops).direct op else lastDirect addr ops
    | none => lastDirect addr ops

variable {b : BlockList} {addr a : SocketAddr} {ip : IpAddr} {ops : List BlockOp} {op : BlockOp}

/-! ## The operations on socket addresses -/

theorem mem_blocked_blockSocketAddr : a ∈ (b.blockSocketAddr addr).2.blockedSocketAddr ↔
    (a = addr ∧ addr ∉ b.allowedSocketAddr) ∨ a ∈ b.blockedSocketAddr := by
  unfold blockSocketAddr
  split
  · rename_i h; simp [h]
  split
  · rename_i h h'
    refine ⟨.inr, ?_⟩
    rintro (⟨rfl, -⟩ | ha)
    · exact h'
    · exact ha
  · rename_i h h'; simp [h]

theorem mem_allowed_blockSocketAddr : a ∈ (b.blockSocketAddr addr).2.allowedSocketAddr ↔
    a ≠ addr ∧ a ∈ b.allowedSocketAddr := by
  unfold blockSocketAddr
  split
  · simp [and_comm]
  rename_i h
  have hne : a ∈ b.allowedSocketAddr → a ≠ addr := fun ha he => h (he ▸ ha)
  split
  · exact ⟨fun ha => ⟨hne ha, ha⟩, And.right⟩
  · exact ⟨fun ha => ⟨hne ha, ha⟩, And.right⟩

theorem mem_allowed_allowSocketAddr : a ∈ (b.allowSocketAddr addr).2.allowedSocketAddr ↔
    (a = addr ∧ addr ∉ b.blockedSocketAddr) ∨ a ∈ b.allowedSocketAddr := by
  unfold allowSocketAddr
  split
  · rename_i h; simp [h]
  split
  · rename_i h h'
    refine ⟨.inr, ?_⟩
    rintro (⟨rfl, -⟩ | ha)
    · exact h'
    · exact ha
  · rename_i h h'; simp [h]

theorem mem_blocked_allowSocketAddr : a ∈ (b.allowSocketAddr addr).2.blockedSocketAddr ↔
    a ≠ addr ∧ a ∈ b.blockedSocketAddr := by
  unfold allowSocketAddr
  split
  · simp [and_comm]
  rename_i h
  have hne : a ∈ b.blockedSocketAddr → a ≠ addr := fun ha he => h (he ▸ ha)
  split
  · exact ⟨fun ha => ⟨hne ha, ha⟩, And.right⟩
  · exact ⟨fun ha => ⟨hne ha, ha⟩, And.right⟩

theorem ipSet_blockSocketAddr : (b.blockSocketAddr addr).2.ipSet = b.ipSet := by
  unfold blockSocketAddr
  split
  · rfl
  split <;> rfl

theorem ipSet_allowSocketAddr : (b.allowSocketAddr addr).2.ipSet = b.ipSet := by
  unfold allowSocketAddr
  split
  · rfl
  split <;> rfl

/-! ## Steps -/

/-- An operation on IP addresses leaves the socket addresses alone. -/
theorem apply_onIps (h : op.OnIps) : (b.apply op).2.blockedSocketAddr = b.blockedSocketAddr ∧
    (b.apply op).2.allowedSocketAddr = b.allowedSocketAddr := by
  cases op with
  | blockIpAddr ip => unfold apply blockIpAddr; simp only; split <;> exact ⟨rfl, rfl⟩
  | blockIpNet net => exact ⟨rfl, rfl⟩
  | allowIpAddr ip => unfold apply allowIpAddr; simp only; split <;> exact ⟨rfl, rfl⟩
  | allowIpNet net => exact ⟨rfl, rfl⟩
  | blockSocketAddr addr => cases h
  | allowSocketAddr addr => cases h

/-- The list of IP addresses follows the set. -/
theorem ipSet_apply {ips : Set IpAddr} (h : ∀ ip, b.ipSet ip = true ↔ ip ∈ ips) (op : BlockOp) (ip : IpAddr) :
    (b.apply op).2.ipSet ip = true ↔ ip ∈ op.changeIps ips := by
  cases op with
  | blockIpAddr ip' =>
    show (b.blockIpAddr ip').2.ipSet ip = true ↔ ip ∈ insert ip' ips
    unfold blockIpAddr
    split
    · rename_i hmem
      rw [h, Set.insert_eq_of_mem ((h ip').mp hmem)]
    · simp [h]
  | blockIpNet net => simp [apply, blockIpNet, BlockOp.changeIps, h]
  | allowIpAddr ip' =>
    show (b.allowIpAddr ip').2.ipSet ip = true ↔ ip ∈ ips \ {ip'}
    unfold allowIpAddr
    split
    · simp [h, and_comm]
    · rename_i hmem
      rw [h, Set.sdiff_singleton_eq_self (fun hip => hmem ((h ip').mpr hip))]
  | allowIpNet net => simp [apply, allowIpNet, BlockOp.changeIps, h, and_comm]
  | blockSocketAddr addr =>
    show (b.blockSocketAddr addr).2.ipSet ip = true ↔ ip ∈ ips
    rw [ipSet_blockSocketAddr, h]
  | allowSocketAddr addr =>
    show (b.allowSocketAddr addr).2.ipSet ip = true ↔ ip ∈ ips
    rw [ipSet_allowSocketAddr, h]

/-- No socket address is both blocked and allowed. -/
def Disjoint (b : BlockList) : Prop := ∀ addr ∈ b.blockedSocketAddr, addr ∉ b.allowedSocketAddr

theorem Disjoint.apply (h : b.Disjoint) (op : BlockOp) : (b.apply op).2.Disjoint := by
  intro a hb ha
  rcases op.onIps_or with hop | ⟨addr, rfl⟩ | ⟨addr, rfl⟩
  · rw [(apply_onIps hop).1] at hb
    rw [(apply_onIps hop).2] at ha
    exact h a hb ha
  · obtain ⟨hne, ha⟩ := mem_allowed_blockSocketAddr.mp ha
    rcases mem_blocked_blockSocketAddr.mp hb with ⟨he, -⟩ | hb
    · exact hne he
    · exact h a hb ha
  · obtain ⟨hne, hb⟩ := mem_blocked_allowSocketAddr.mp hb
    rcases mem_allowed_allowSocketAddr.mp ha with ⟨he, -⟩ | ha
    · exact hne he
    · exact h a hb ha

/-- An operation that returns a Boolean says whether it changed the rules. -/
theorem apply_returns {r : Bool} (h : (b.apply op).1 = some r) : r = true ↔ ¬ b.Same (b.apply op).2 := by
  have hsame : b.Same b := ⟨fun _ => rfl, fun _ => Iff.rfl, fun _ => Iff.rfl⟩
  cases op with
  | blockIpAddr ip =>
    obtain rfl := Option.some.inj h
    show (b.blockIpAddr ip).1 = true ↔ ¬ b.Same (b.blockIpAddr ip).2
    unfold blockIpAddr
    split
    · simp [hsame]
    · rename_i hmem
      refine ⟨fun _ hs => hmem ?_, fun _ => rfl⟩
      rw [hs.ips ip]
      simp
  | allowIpAddr ip =>
    obtain rfl := Option.some.inj h
    show (b.allowIpAddr ip).1 = true ↔ ¬ b.Same (b.allowIpAddr ip).2
    unfold allowIpAddr
    split
    · rename_i hmem
      refine ⟨fun _ hs => ?_, fun _ => rfl⟩
      have := hs.ips ip
      rw [hmem] at this
      simp at this
    · simp [hsame]
  | blockSocketAddr addr =>
    obtain rfl := Option.some.inj h
    show (b.blockSocketAddr addr).1 = true ↔ ¬ b.Same (b.blockSocketAddr addr).2
    by_cases hal : addr ∈ b.allowedSocketAddr
    · refine ⟨fun _ hs => ?_, fun _ => by simp [blockSocketAddr, hal]⟩
      exact (mem_allowed_blockSocketAddr.mp ((hs.allowed addr).mp hal)).1 rfl
    by_cases hbl : addr ∈ b.blockedSocketAddr
    · simp [blockSocketAddr, hal, hbl, hsame]
    · refine ⟨fun _ hs => hbl ?_, fun _ => by simp [blockSocketAddr, hal, hbl]⟩
      exact (hs.blocked addr).mpr (mem_blocked_blockSocketAddr.mpr (.inl ⟨rfl, hal⟩))
  | allowSocketAddr addr =>
    obtain rfl := Option.some.inj h
    show (b.allowSocketAddr addr).1 = true ↔ ¬ b.Same (b.allowSocketAddr addr).2
    by_cases hbl : addr ∈ b.blockedSocketAddr
    · refine ⟨fun _ hs => ?_, fun _ => by simp [allowSocketAddr, hbl]⟩
      exact (mem_blocked_allowSocketAddr.mp ((hs.blocked addr).mp hbl)).1 rfl
    by_cases hal : addr ∈ b.allowedSocketAddr
    · simp [allowSocketAddr, hal, hbl, hsame]
    · refine ⟨fun _ hs => hal ?_, fun _ => by simp [allowSocketAddr, hal, hbl]⟩
      exact (hs.allowed addr).mpr (mem_allowed_allowSocketAddr.mpr (.inl ⟨rfl, hbl⟩))
  | blockIpNet net => cases h
  | allowIpNet net => cases h

/-! ## Histories -/

theorem ipSet_run (ops : List BlockOp) (ip : IpAddr) : (run ops).ipSet ip = true ↔ ip ∈ blockedIps ops := by
  induction ops generalizing ip with
  | nil => simp [run, new, blockedIps]
  | cons op ops ih => exact ipSet_apply ih op ip

theorem disjoint_run (ops : List BlockOp) : (run ops).Disjoint := by
  induction ops with
  | nil => exact fun _ h => by cases h
  | cons op ops ih => exact ih.apply op

/-- Where the last operation was direct, the sets of socket addresses record it. -/
structure Recorded (b : BlockList) (addr : SocketAddr) (r : Option Bool) : Prop where
  blocked : addr ∈ b.blockedSocketAddr ↔ r = some true
  allowed : addr ∈ b.allowedSocketAddr ↔ r = some false

/-- Where it was not, there is no rule for the address. -/
structure Unruled (b : BlockList) (addr : SocketAddr) : Prop where
  blocked : addr ∉ b.blockedSocketAddr
  allowed : addr ∉ b.allowedSocketAddr

theorem recorded_or_unruled (addr : SocketAddr) (ops : List BlockOp) :
    (lastDirect addr ops = true → (run ops).Recorded addr (lastRule addr ops)) ∧
      (lastDirect addr ops = false → (run ops).Unruled addr ∧ lastRule addr ops ≠ none) := by
  induction ops with
  | nil => exact ⟨fun _ => ⟨by simp [run, new, lastRule], by simp [run, new, lastRule]⟩, (fun h => by cases h)⟩
  | cons op ops ih =>
    -- an operation on something else
    have hother : lastDirect addr (op :: ops) = lastDirect addr ops → lastRule addr (op :: ops) = lastRule addr ops →
        (addr ∈ (run (op :: ops)).blockedSocketAddr ↔ addr ∈ (run ops).blockedSocketAddr) →
        (addr ∈ (run (op :: ops)).allowedSocketAddr ↔ addr ∈ (run ops).allowedSocketAddr) →
        (lastDirect addr (op :: ops) = true → (run (op :: ops)).Recorded addr (lastRule addr (op :: ops))) ∧
          (lastDirect addr (op :: ops) = false →
            (run (op :: ops)).Unruled addr ∧ lastRule addr (op :: ops) ≠ none) := by
      intro hdir hrule hb ha
      rw [hdir, hrule]
      refine ⟨fun h => ⟨hb.trans (ih.1 h).blocked, ha.trans (ih.1 h).allowed⟩, fun h => ?_⟩
      obtain ⟨hun, hne⟩ := ih.2 h
      exact ⟨⟨fun hm => hun.blocked (hb.mp hm), fun hm => hun.allowed (ha.mp hm)⟩, hne⟩
    have hdis := disjoint_run ops addr
    rcases op.onIps_or with hop | ⟨a, rfl⟩ | ⟨a, rfl⟩
    · obtain ⟨hb, ha⟩ := apply_onIps (b := run ops) hop
      refine hother ?_ ?_ ?_ ?_
      · simp only [lastDirect, show op.rule = none from hop]
      · simp only [lastRule, show op.rule = none from hop]
      · rw [run, hb]
      · rw [run, ha]
    · have hb : addr ∈ ((run ops).blockSocketAddr a).2.blockedSocketAddr ↔ _ := mem_blocked_blockSocketAddr
      have ha : addr ∈ ((run ops).blockSocketAddr a).2.allowedSocketAddr ↔ _ := mem_allowed_blockSocketAddr
      by_cases hne : a = addr
      swap
      · refine hother (if_neg hne) (if_neg hne) (hb.trans ?_) (ha.trans ?_)
        · simp [Ne.symm hne]
        · simp [Ne.symm hne]
      subst hne
      have hdir : lastDirect a (.blockSocketAddr a :: ops) = decide (a ∉ (run ops).allowedSocketAddr) := if_pos rfl
      have hrule : lastRule a (.blockSocketAddr a :: ops) = some true := if_pos rfl
      rw [hdir, hrule]
      refine ⟨fun h => ⟨?_, ?_⟩, fun h => ⟨⟨?_, ?_⟩, Option.some_ne_none _⟩⟩
      · exact iff_of_true (hb.mpr (.inl ⟨rfl, of_decide_eq_true h⟩)) rfl
      · exact iff_of_false (fun hm => (ha.mp hm).1 rfl) (by decide)
      · have hal : a ∈ (run ops).allowedSocketAddr := not_not.mp (of_decide_eq_false h)
        intro hm
        rcases hb.mp hm with ⟨-, hnot⟩ | hbl
        · exact hnot hal
        · exact hdis hbl hal
      · exact fun hm => (ha.mp hm).1 rfl
    · have hb : addr ∈ ((run ops).allowSocketAddr a).2.blockedSocketAddr ↔ _ := mem_blocked_allowSocketAddr
      have ha : addr ∈ ((run ops).allowSocketAddr a).2.allowedSocketAddr ↔ _ := mem_allowed_allowSocketAddr
      by_cases hne : a = addr
      swap
      · refine hother (if_neg hne) (if_neg hne) (hb.trans ?_) (ha.trans ?_)
        · simp [Ne.symm hne]
        · simp [Ne.symm hne]
      subst hne
      have hdir : lastDirect a (.allowSocketAddr a :: ops) = decide (a ∉ (run ops).blockedSocketAddr) := if_pos rfl
      have hrule : lastRule a (.allowSocketAddr a :: ops) = some false := if_pos rfl
      rw [hdir, hrule]
      refine ⟨fun h => ⟨?_, ?_⟩, fun h => ⟨⟨?_, ?_⟩, Option.some_ne_none _⟩⟩
      · exact iff_of_false (fun hm => (hb.mp hm).1 rfl) (by decide)
      · exact iff_of_true (ha.mpr (.inl ⟨rfl, of_decide_eq_true h⟩)) rfl
      · exact fun hm => (hb.mp hm).1 rfl
      · have hbl : a ∈ (run ops).blockedSocketAddr := not_not.mp (of_decide_eq_false h)
        intro hm
        rcases ha.mp hm with ⟨-, hnot⟩ | hal
        · exact hnot hbl
        · exact hdis hbl hal

/-- The address is blocked by a rule of its own, or it has none and its IP address is blocked. -/
theorem socketAddrIsBlocked_iff (hd : b.Disjoint) : b.socketAddrIsBlocked addr = true ↔
    addr ∈ b.blockedSocketAddr ∨ (addr ∉ b.allowedSocketAddr ∧ b.ipSet addr.ip = true) := by
  unfold socketAddrIsBlocked
  split
  · rename_i ha
    exact iff_of_false (by decide) (by rintro (hb | ⟨hna, -⟩); exacts [hd _ hb ha, hna ha])
  rename_i ha
  split
  · rename_i hb; simp [hb]
  · rename_i hb; simp [hb, ha]

/-- After a direct operation the answer is the last rule. -/
theorem isBlocked_of_lastDirect (h : lastDirect addr ops = true) :
    (run ops).socketAddrIsBlocked addr = true ↔ Blocks ops addr := by
  obtain ⟨hb, ha⟩ := (recorded_or_unruled addr ops).1 h
  rw [socketAddrIsBlocked_iff (disjoint_run ops), hb, ha, ipSet_run]
  unfold Blocks
  rcases lastRule addr ops with _ | _ | _ <;> simp

/-- After any other one it is that of the IP rules. -/
theorem isBlocked_of_not_lastDirect (h : lastDirect addr ops = false) :
    (run ops).socketAddrIsBlocked addr = true ↔ addr.ip ∈ blockedIps ops := by
  obtain ⟨hun, -⟩ := (recorded_or_unruled addr ops).2 h
  rw [socketAddrIsBlocked_iff (disjoint_run ops), ipSet_run]
  simp [hun.blocked, hun.allowed]

theorem lastDirect_onIps {ips : List BlockOp} (h : ∀ op ∈ ips, op.OnIps) :
    lastDirect addr (ips ++ ops) = lastDirect addr ops ∧ lastRule addr (ips ++ ops) = lastRule addr ops := by
  induction ips with
  | nil => exact ⟨rfl, rfl⟩
  | cons op ips ih =>
    have hop : op.rule = none := h op (List.mem_cons_self ..)
    obtain ⟨hd, hr⟩ := ih (fun op' hop' => h op' (List.mem_cons_of_mem _ hop'))
    simp only [List.cons_append, lastDirect, lastRule, hop, hd, hr, and_self]

end BlockList

/-- In every history no socket address is both blocked and allowed, and an
operation that returns a Boolean returns whether it changed the rules. The
answers for a socket address are what they are to be, also after any further
operations on IP addresses, exactly when the last operation on the socket
address did not find it among those of the opposite kind. -/
theorem blockList_semantics (ops : List BlockOp) :
    (BlockList.run ops).Disjoint ∧
      (∀ op r, ((BlockList.run ops).apply op).1 = some r →
        (r = true ↔ ¬ (BlockList.run ops).Same ((BlockList.run ops).apply op).2)) ∧
      ∀ addr, (∀ ips : List BlockOp, (∀ op ∈ ips, op.OnIps) →
          ((BlockList.run (ips ++ ops)).socketAddrIsBlocked addr = true ↔ Blocks (ips ++ ops) addr)) ↔
        BlockList.lastDirect addr ops = true := by
  refine ⟨BlockList.disjoint_run ops, fun op r h => BlockList.apply_returns h, fun addr => ⟨fun hall => ?_, ?_⟩⟩
  · by_contra hnd
    rw [Bool.not_eq_true] at hnd
    -- an IP rule that says the opposite of the last rule shows the difference
    have hne := ((BlockList.recorded_or_unruled addr ops).2 hnd).2
    obtain ⟨r, hr⟩ := Option.ne_none_iff_exists'.mp hne
    have hone : ∀ op : BlockOp, op.OnIps → (addr.ip ∈ blockedIps (op :: ops) ↔ r = true) := by
      intro op hop
      have hips : ∀ op' ∈ [op], op'.OnIps := by
        intro op' hop'
        rw [List.mem_singleton.mp hop']
        exact hop
      obtain ⟨hd, hl⟩ : BlockList.lastDirect addr (op :: ops) = _ ∧ lastRule addr (op :: ops) = _ :=
        BlockList.lastDirect_onIps hips
      have hq : (BlockList.run (op :: ops)).socketAddrIsBlocked addr = true ↔ Blocks (op :: ops) addr := hall [op] hips
      rw [BlockList.isBlocked_of_not_lastDirect (hd.trans hnd), Blocks, hl, hr] at hq
      exact hq
    have hblock := hone (.blockIpAddr addr.ip) rfl
    have hallow := hone (.allowIpAddr addr.ip) rfl
    have h1 : r = true := hblock.mp (Set.mem_insert _ _)
    exact (hallow.mpr h1).2 rfl
  · intro hd ips hips
    exact BlockList.isBlocked_of_lastDirect ((BlockList.lastDirect_onIps hips).1.trans hd)

/-- A socket address that is allowed and then blocked is not blocked. -/
theorem blockList_takes_rule_back :
    ¬ ∀ (ops : List BlockOp) (addr : SocketAddr),
      (BlockList.run ops).socketAddrIsBlocked addr = true ↔ Blocks ops addr := by
  intro hall
  have h := hall [.blockSocketAddr (.v4 0x0a000001#32 8080#16), .allowSocketAddr (.v4 0x0a000001#32 8080#16)]
    (.v4 0x0a000001#32 8080#16)
  exact absurd (h.mpr rfl) (by decide)

end Kompact
