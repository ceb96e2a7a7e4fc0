import Kompact.Buffers.DecodeBuffer
import Kompact.Framework.Transition
import Mathlib.Data.List.Perm.Basic

/-!
# The buffer pool

A `BufferPool` keeps the chunks that were returned, in the order they came
back, and hands out the first one that nobody holds a lock on; it allocates new
chunks up to a limit.

`tryReserve` takes chunks out of the pool one by one before it puts them back.
Where it finds some but not enough it drops those it has (`Loses`); this is the
only step after which `poolSize` counts chunks that nobody has
(`pool_accounting`).

`Balances` is the account of an owner who never reserves: the chunks it has
taken and those in the pool are all that were allocated.
-/

namespace Kompact

/-- The configuration of a pool. -/
structure PoolConfig extends BufferConfig where
  chunkSize : Nat
  initialChunkCount : Nat
  maxChunkCount : Nat
  deriving DecidableEq, Repr

/-- The checks of `BufferConfig::validate`. -/
def PoolConfig.validate (cfg : PoolConfig) : Panics Unit :=
  if cfg.maxChunkCount < cfg.initialChunkCount then
    .error "initial_chunk_count may not be greater than max_chunk_count"
  else if cfg.chunkSize ≤ cfg.encodeBufMinFreeSpace then
    .error "chunk_size must be greater than encode_min_remaining"
  else if cfg.chunkSize < 128 then .error "chunk_size smaller than 128 is not allowed"
  else if cfg.maxChunkCount < 2 then .error "max_chunk_count must be greater than 2"
  else .ok ()

theorem PoolConfig.of_validate {cfg : PoolConfig} (h : cfg.validate = .ok ()) :
    cfg.initialChunkCount ≤ cfg.maxChunkCount ∧ 128 ≤ cfg.chunkSize := by
  unfold validate at h
  split at h
  · cases h
  split at h
  · cases h
  split at h
  · cases h
  · omega

inductive BufferError where
  | noAvailableBuffers (msg : String)
  deriving DecidableEq, Repr

/-- A pool. `nextChunk` is the allocator: every chunk it gives out is a new one. -/
structure BufferPool where
  pool : List BufferChunk
  /-- Counts the chunks allocated by this pool. -/
  poolSize : Nat
  chunkSize : Nat
  maxPoolSize : Nat
  nextChunk : ChunkId
  deriving DecidableEq, Repr

namespace BufferPool

/-- A chunk from the allocator. -/
def fromChunk (chunk : ChunkId) (len : Nat) : BufferChunk := ⟨chunk, len, 1, false⟩

/-- The first chunks, each pushed to the front. Chunks are numbered from one. -/
def firstChunks (len : Nat) : Nat → List BufferChunk
  | 0 => []
  | n + 1 => fromChunk (n + 1) len :: firstChunks len n

def withConfig (cfg : PoolConfig) : Panics BufferPool := do
  cfg.validate
  return {
    pool := firstChunks cfg.chunkSize cfg.initialChunkCount
    poolSize := cfg.initialChunkCount
    chunkSize := cfg.chunkSize
    maxPoolSize := cfg.maxChunkCount
    nextChunk := cfg.initialChunkCount + 1 }

/-- A new chunk, while the limit allows it. -/
def increasePool (p : BufferPool) : Option BufferChunk × BufferPool :=
  if p.maxPoolSize ≤ p.poolSize then (none, p)
  else (some (fromChunk p.nextChunk p.chunkSize),
    { p with poolSize := p.poolSize + 1, nextChunk := p.nextChunk + 1 })

/-- The loop of `try_reclaim`: chunks that are still locked go to the back. -/
def reclaimLoop : Nat → List BufferChunk → Option BufferChunk × List BufferChunk
  | 0, pool => (none, pool)
  | n + 1, [] => reclaimLoop n []
  | n + 1, buffer :: pool =>
    match buffer.free with
    | (true, buffer) => (some buffer, pool)
    | (false, buffer) => reclaimLoop n (pool ++ [buffer])

/-- The oldest chunk that is available again, or else a new one. -/
def tryReclaim (p : BufferPool) : Option BufferChunk × BufferPool :=
  match reclaimLoop p.pool.length p.pool with
  | (some buffer, pool) => (some buffer, { p with pool })
  | (none, pool) => { p with pool }.increasePool

def getBuffer (p : BufferPool) : Option BufferChunk × BufferPool := p.tryReclaim

def returnBuffer (p : BufferPool) (buffer : BufferChunk) : BufferPool :=
  { p with pool := p.pool ++ [buffer.lock] }

/-- The loop of `try_reserve`: `n` more chunks. -/
def reserveLoop : Nat → BufferPool → List BufferChunk → Option (List BufferChunk) × BufferPool
  | 0, p, reserved => (some reserved, p)
  | n + 1, p, reserved =>
    match p.tryReclaim with
    | (some reclaimed, p) => reserveLoop n p (reserved ++ [reclaimed])
    | (none, p) => (none, p)

/-- The chunks needed for `size` bytes. -/
def requiredBuffers (p : BufferPool) (size : Nat) : Nat := (size + p.chunkSize - 1) / p.chunkSize

/-- See to it that the pool has room for `size` bytes. The chunks that were
taken out go back to the front, or are dropped where there are not enough. -/
def tryReserve (p : BufferPool) (size : Nat) : Except BufferError Unit × BufferPool :=
  let required := p.requiredBuffers size
  if p.maxPoolSize < required then
    (.error (.noAvailableBuffers
      (s!"Message too big for the current BufferConfig {size} bytes. " ++
        s!"chunk_size: {p.chunkSize}, max_pool_size: {p.maxPoolSize}")), p)
  else if required ≤ p.maxPoolSize - p.poolSize then (.ok (), p)
  else
    match reserveLoop required p [] with
    | (some reserved, p) => (.ok (), { p with pool := reserved.reverse ++ p.pool })
    | (none, p) =>
      (.error (.noAvailableBuffers
        (s!"try_reserve failed while reserving {size} bytes. chunk_size: {p.chunkSize}, " ++
          s!"max_pool_size: {p.maxPoolSize}, current pool_size {p.poolSize} ")), p)

/-! ## Reclaiming -/

/-- The chunks of the pool that are available. -/
def freeable (p : BufferPool) : Nat := p.pool.countP (·.free.1)

/-- The chunks the pool can hand out without one being returned. -/
def available (p : BufferPool) : Nat := p.freeable + (p.maxPoolSize - p.poolSize)

theorem free_snd_of_not {b : BufferChunk} (h : b.free.1 = false) : b.free.2 = b := by
  unfold BufferChunk.free at *
  split at h
  · split at h
    · cases h
    · rename_i hl hr; simp [hl, hr]
  · cases h

theorem reclaimLoop_none {xs : List BufferChunk} (h : ∀ b ∈ xs, b.free.1 = false) (ys : List BufferChunk) :
    reclaimLoop xs.length (xs ++ ys) = (none, ys ++ xs) := by
  induction xs generalizing ys with
  | nil => simp [reclaimLoop]
  | cons b xs ih =>
    have hb : b.free = (false, b) :=
      Prod.ext (h b (List.mem_cons_self ..)) (free_snd_of_not (h b (List.mem_cons_self ..)))
    simp only [List.length_cons, List.cons_append, reclaimLoop, hb]
    rw [List.append_assoc, ih (fun b' hb' => h b' (List.mem_cons_of_mem _ hb')), List.append_assoc,
      List.singleton_append]

theorem reclaimLoop_some {pre post : List BufferChunk} {b : BufferChunk} (h : ∀ b ∈ pre, b.free.1 = false)
    (hb : b.free.1 = true) (n : Nat) (ys : List BufferChunk) :
    reclaimLoop (pre.length + n + 1) (pre ++ b :: post ++ ys) = (some b.free.2, post ++ ys ++ pre) := by
  induction pre generalizing ys with
  | nil =>
    have hf : b.free = (true, b.free.2) := Prod.ext hb rfl
    rw [List.length_nil, Nat.zero_add, List.nil_append, List.append_nil, List.cons_append, reclaimLoop]
    split
    · rename_i b' he; rw [he]
    · rename_i b' he; rw [hf] at he; cases he
  | cons a pre ih =>
    have ha : a.free = (false, a) :=
      Prod.ext (h a (List.mem_cons_self ..)) (free_snd_of_not (h a (List.mem_cons_self ..)))
    rw [show (a :: pre).length + n + 1 = pre.length + n + 1 + 1 by simp only [List.length_cons]; omega]
    simp only [List.cons_append, reclaimLoop, ha]
    rw [show pre ++ b :: post ++ ys ++ [a] = pre ++ b :: post ++ (ys ++ [a]) by simp only [List.append_assoc],
      ih (fun b' hb' => h b' (List.mem_cons_of_mem _ hb'))]
    simp

/-- What `tryReclaim` does: it hands out a chunk of the pool, or a new one, or
finds the limit reached. -/
inductive Reclaims (p : BufferPool) : Option BufferChunk → BufferPool → Prop
  | idle {pre post : List BufferChunk} {b : BufferChunk} (hp : p.pool = pre ++ b :: post)
      (hpre : ∀ b ∈ pre, b.free.1 = false) (hb : b.free.1 = true) :
      Reclaims p (some b.free.2) { p with pool := post ++ pre }
  | allocated (hnone : ∀ b ∈ p.pool, b.free.1 = false) (hlt : p.poolSize < p.maxPoolSize) :
      Reclaims p (some (fromChunk p.nextChunk p.chunkSize))
        { p with poolSize := p.poolSize + 1, nextChunk := p.nextChunk + 1 }
  | exhausted (hnone : ∀ b ∈ p.pool, b.free.1 = false) (hge : p.maxPoolSize ≤ p.poolSize) : Reclaims p none p

theorem reclaims (p : BufferPool) : Reclaims p p.tryReclaim.1 p.tryReclaim.2 := by
  unfold tryReclaim
  by_cases hall : ∀ b ∈ p.pool, b.free.1 = false
  · have hl := reclaimLoop_none hall []
    rw [List.append_nil, List.nil_append] at hl
    rw [hl]
    simp only [increasePool]
    split
    · exact .exhausted hall ‹_›
    · exact .allocated hall (by omega)
  · obtain ⟨b, hb⟩ : ∃ b, p.pool.find? (·.free.1) = some b := by
      rw [← Option.isSome_iff_exists, List.find?_isSome]
      simpa using hall
    obtain ⟨hfree, pre, post, hp, hpre⟩ := List.find?_eq_some_iff_append.mp hb
    have hpre' : ∀ b ∈ pre, b.free.1 = false := fun b hb => by simpa using hpre b hb
    have hl : reclaimLoop _ (pre ++ b :: post ++ []) = _ := reclaimLoop_some hpre' hfree post.length []
    rw [List.append_nil, List.append_nil, ← hp,
      show pre.length + post.length + 1 = p.pool.length by rw [hp]; simp; omega] at hl
    rw [hl]
    exact .idle hp hpre' hfree

/-! ## Reserving -/

/-- A pool that can hand out a chunk does, and has one less to hand out. -/
theorem tryReclaim_spec (p : BufferPool) :
    p.tryReclaim.1.isSome = decide (0 < p.available) ∧
      p.tryReclaim.2.available = p.available - 1 ∧
      p.tryReclaim.2.maxPoolSize = p.maxPoolSize ∧
      (p.poolSize ≤ p.maxPoolSize → p.tryReclaim.2.poolSize ≤ p.maxPoolSize) ∧
      p.tryReclaim.2.poolSize + p.pool.length =
        p.poolSize + p.tryReclaim.2.pool.length + if 0 < p.available then 1 else 0 := by
  have h := reclaims p
  generalize p.tryReclaim.1 = o at *
  generalize p.tryReclaim.2 = p' at *
  have hzero : (∀ b ∈ p.pool, b.free.1 = false) → p.freeable = 0 := fun hnone => by
    rw [freeable, List.countP_eq_zero]
    exact fun b hb => by simp [hnone b hb]
  cases h with
  | @idle pre post b hp hpre hb =>
    have hf : p.freeable = (post ++ pre).countP (·.free.1) + 1 := by
      rw [freeable, hp]
      simp [hb]
      omega
    have ha : 0 < p.available := by unfold available; omega
    have hlen : p.pool.length = (post ++ pre).length + 1 := by rw [hp]; simp; omega
    refine ⟨by simp [ha], ?_, rfl, id, ?_⟩
    · show (post ++ pre).countP (·.free.1) + (p.maxPoolSize - p.poolSize) = p.available - 1
      unfold available
      omega
    · rw [if_pos ha]
      show p.poolSize + p.pool.length = p.poolSize + (post ++ pre).length + 1
      omega
  | allocated hnone hlt =>
    have hf := hzero hnone
    have ha : 0 < p.available := by unfold available; omega
    refine ⟨by simp [ha], ?_, rfl, fun _ => hlt, ?_⟩
    · show p.freeable + (p.maxPoolSize - (p.poolSize + 1)) = p.available - 1
      unfold available
      omega
    · rw [if_pos ha]
      show p.poolSize + 1 + p.pool.length = p.poolSize + p.pool.length + 1
      omega
  | exhausted hnone hge =>
    have hf := hzero hnone
    have ha : ¬ 0 < p.available := by unfold available; omega
    exact ⟨by simp [ha], by omega, rfl, id, by rw [if_neg ha]; rfl⟩

/-- The loop finds what is available, and stops where it is not enough. -/
theorem reserveLoop_found (n : Nat) (p : BufferPool) (reserved : List BufferChunk) :
    (reserveLoop n p reserved).1.map List.length = if n ≤ p.available then some (reserved.length + n) else none := by
  induction n generalizing p reserved with
  | zero => simp [reserveLoop]
  | succ n ih =>
    obtain ⟨hsome, hav, -, -, -⟩ := p.tryReclaim_spec
    rw [reserveLoop]
    generalize p.tryReclaim = t at *
    obtain ⟨o, p'⟩ := t
    simp only at *
    cases o with
    | none =>
      have ha : ¬ 0 < p.available := by simpa using hsome.symm
      rw [if_neg (by omega)]
      rfl
    | some b =>
      have ha : 0 < p.available := by simpa using hsome.symm
      rw [ih p' (reserved ++ [b]), hav, List.length_append, List.length_singleton]
      by_cases hn : n + 1 ≤ p.available
      · rw [if_pos hn, if_pos (by omega), Nat.add_assoc, Nat.add_comm 1 n]
      · rw [if_neg hn, if_neg (by omega)]

/-- All it takes is counted as handed out. -/
theorem reserveLoop_spec (n : Nat) (p : BufferPool) (reserved : List BufferChunk) :
    (reserveLoop n p reserved).2.maxPoolSize = p.maxPoolSize ∧
      (p.poolSize ≤ p.maxPoolSize → (reserveLoop n p reserved).2.poolSize ≤ p.maxPoolSize) ∧
      (reserveLoop n p reserved).2.poolSize + p.pool.length =
        p.poolSize + (reserveLoop n p reserved).2.pool.length + min n p.available := by
  induction n generalizing p reserved with
  | zero => exact ⟨rfl, id, by simp [reserveLoop]⟩
  | succ n ih =>
    obtain ⟨hsome, hav, hmax, hle, hcount⟩ := p.tryReclaim_spec
    rw [reserveLoop]
    generalize p.tryReclaim = t at *
    obtain ⟨o, p'⟩ := t
    simp only at *
    cases o with
    | none =>
      have ha : ¬ 0 < p.available := by simpa using hsome.symm
      rw [if_neg ha] at hcount
      exact ⟨hmax, hle, by simp only; omega⟩
    | some b =>
      have ha : 0 < p.available := by simpa using hsome.symm
      obtain ⟨hmax', hle', hcount'⟩ := ih p' (reserved ++ [b])
      rw [if_pos ha] at hcount
      refine ⟨hmax'.trans hmax, fun h => hmax ▸ hle' (hmax ▸ hle h), ?_⟩
      simp only
      omega

/-- A reservation that finds some chunks, but not enough of them. -/
def Loses (p : BufferPool) (size : Nat) : Prop :=
  p.requiredBuffers size ≤ p.maxPoolSize ∧ p.available < p.requiredBuffers size ∧ 0 < p.available

instance (p : BufferPool) (size : Nat) : Decidable (p.Loses size) := inferInstanceAs (Decidable (_ ∧ _ ∧ _))

/-- A pool after a reservation has no other chunks than before and new ones,
and has handed out no others. -/
structure Kept (p p' : BufferPool) : Prop where
  idle : ∃ new : List BufferChunk, p'.pool.Perm (new ++ p.pool)
  handedOut : p'.poolSize + p.pool.length = p.poolSize + p'.pool.length

/-- How a reservation changes the number of chunks that were handed out. -/
theorem tryReserve_spec (p : BufferPool) (size : Nat) :
    (p.tryReserve size).2.maxPoolSize = p.maxPoolSize ∧
      (p.poolSize ≤ p.maxPoolSize → (p.tryReserve size).2.poolSize ≤ p.maxPoolSize) ∧
      (p.tryReserve size).2.poolSize + p.pool.length =
        p.poolSize + (p.tryReserve size).2.pool.length + if p.Loses size then p.available else 0 := by
  unfold tryReserve
  simp only
  obtain ⟨hmax, hle, hcount⟩ := reserveLoop_spec (p.requiredBuffers size) p []
  have hfound := reserveLoop_found (p.requiredBuffers size) p []
  split
  · rename_i hbig
    have hl : ¬ p.Loses size := fun h => absurd h.1 (by omega)
    exact ⟨rfl, id, by rw [if_neg hl]; rfl⟩
  rename_i hbig
  split
  · rename_i hroom
    have hl : ¬ p.Loses size := fun h => by
      have := h.2.1
      unfold available at this
      omega
    exact ⟨rfl, id, by rw [if_neg hl]; rfl⟩
  rename_i hroom
  generalize reserveLoop (p.requiredBuffers size) p [] = r at *
  obtain ⟨o, p'⟩ := r
  by_cases hav : p.requiredBuffers size ≤ p.available
  · rw [if_pos hav] at hfound
    rw [if_neg (fun h : p.Loses size => absurd h.2.1 (by omega))]
    obtain ⟨rs, rfl, hlen⟩ := Option.map_eq_some_iff.mp hfound
    refine ⟨hmax, hle, ?_⟩
    simp only [List.length_append, List.length_reverse, List.length_nil] at *
    omega
  · rw [if_neg hav] at hfound
    obtain rfl := Option.map_eq_none_iff.mp hfound
    refine ⟨hmax, hle, ?_⟩
    simp only at *
    by_cases h0 : 0 < p.available
    · rw [if_pos (show p.Loses size from ⟨by omega, by omega, h0⟩)]
      omega
    · rw [if_neg (fun h : p.Loses size => h0 h.2.2)]
      omega

/-- A pool that can hand out nothing stays as it is. -/
theorem tryReclaim_of_not_available {p : BufferPool} (h : ¬ 0 < p.available) : p.tryReclaim = (none, p) := by
  have hsome := p.tryReclaim_spec.1
  have hr := reclaims p
  generalize p.tryReclaim = t at *
  obtain ⟨o, p'⟩ := t
  simp only at *
  cases hr with
  | idle _ _ _ => simp [h] at hsome
  | allocated _ _ => simp [h] at hsome
  | exhausted _ _ => rfl

/-- A reservation that fails keeps the chunks of the pool, unless it had taken some. -/
theorem kept_iff {p : BufferPool} {size : Nat} {e : BufferError} (h : (p.tryReserve size).1 = .error e) :
    Kept p (p.tryReserve size).2 ↔ ¬ p.Loses size := by
  constructor
  · intro hk hl
    have hcount := (p.tryReserve_spec size).2.2
    rw [if_pos hl] at hcount
    have := hk.handedOut
    have := hl.2.2
    omega
  · intro hl
    suffices hs : (p.tryReserve size).2 = p by
      rw [hs]
      exact ⟨⟨[], List.Perm.refl _⟩, rfl⟩
    have hfound := reserveLoop_found (p.requiredBuffers size) p []
    unfold tryReserve at h ⊢
    simp only at *
    split at h
    · rename_i hbig; rw [if_pos hbig]
    rename_i hbig
    rw [if_neg hbig]
    split at h
    · cases h
    rename_i hroom
    rw [if_neg hroom]
    by_cases hav : p.requiredBuffers size ≤ p.available
    · rw [if_pos hav] at hfound
      obtain ⟨rs, hrs, -⟩ := Option.map_eq_some_iff.mp hfound
      generalize reserveLoop (p.requiredBuffers size) p [] = r at *
      obtain ⟨o, p'⟩ := r
      simp only at hrs
      subst hrs
      cases h
    · have h0 : ¬ 0 < p.available := fun h0 => hl ⟨by omega, by omega, h0⟩
      obtain ⟨n, hn⟩ : ∃ n, p.requiredBuffers size = n + 1 := Nat.exists_eq_succ_of_ne_zero (by omega)
      rw [hn, reserveLoop, tryReclaim_of_not_available h0]

end BufferPool

/-! ## The chunks that are out -/

/-- Which chunk it is, and how long; locks aside. -/
def BufferChunk.key (b : BufferChunk) : ChunkId × Nat := (b.chunk, b.len)

theorem BufferChunk.key_free (b : BufferChunk) : b.free.2.key = b.key := by
  unfold free
  split
  · split
    · rfl
    · rfl
  · rfl

namespace BufferPool

/-- All chunks the allocator has given to the pool. -/
def allocated (p : BufferPool) : List (ChunkId × Nat) := (List.range' 1 (p.nextChunk - 1)).map (·, p.chunkSize)

/-- The chunks `out` and those in the pool are all that were allocated, each of them once. -/
structure Balances (p : BufferPool) (size : Nat) (out : List BufferChunk) : Prop where
  pos : 1 ≤ p.nextChunk
  chunkSize : p.chunkSize = size
  all : ((p.pool ++ out).map BufferChunk.key).Perm p.allocated

variable {p p' : BufferPool} {size : Nat} {out out' : List BufferChunk} {b b' : BufferChunk}

theorem Balances.perm (h : p.Balances size out) (ho : (out.map BufferChunk.key).Perm (out'.map BufferChunk.key)) :
    p.Balances size out' := by
  refine ⟨h.pos, h.chunkSize, List.Perm.trans ?_ h.all⟩
  rw [List.map_append, List.map_append]
  exact (ho.symm).append_left _

theorem Balances.getBuffer (h : p.Balances size out) (hg : p.getBuffer = (some b, p')) : p'.Balances size (b :: out) := by
  have hr := reclaims p
  rw [show p.tryReclaim = (some b, p') from hg] at hr
  cases hr with
  | @idle pre post c hp hpre hb =>
    refine ⟨h.pos, h.chunkSize, List.Perm.trans ?_ h.all⟩
    rw [hp]
    show ((post ++ pre ++ c.free.2 :: out).map BufferChunk.key).Perm ((pre ++ c :: post ++ out).map BufferChunk.key)
    simp only [List.map_append, List.map_cons, BufferChunk.key_free, List.append_assoc, List.cons_append]
    exact (List.perm_append_comm_assoc _ _ _).trans (List.perm_middle.append_left _)
  | allocated hnone hlt =>
    have hall : (List.range' 1 (p.nextChunk + 1 - 1)).map (·, p.chunkSize) =
        p.allocated ++ [(p.nextChunk, p.chunkSize)] := by
      rw [show p.nextChunk + 1 - 1 = p.nextChunk - 1 + 1 from (Nat.sub_add_cancel h.pos).symm, List.range'_1_concat,
        Nat.add_sub_cancel' h.pos, List.map_append]
      rfl
    have hcons : ((p.pool ++ fromChunk p.nextChunk p.chunkSize :: out).map BufferChunk.key).Perm
        ((p.nextChunk, p.chunkSize) :: (p.pool ++ out).map BufferChunk.key) := List.perm_middle.map BufferChunk.key
    refine ⟨Nat.le_add_left _ _, h.chunkSize, ?_⟩
    show List.Perm _ ((List.range' 1 (p.nextChunk + 1 - 1)).map (·, p.chunkSize))
    rw [hall]
    exact hcons.trans ((h.all.cons _).trans (List.perm_append_singleton _ _).symm)

theorem Balances.returnBuffer (h : p.Balances size (b :: out)) (hb : b'.key = b.key) : (p.returnBuffer b').Balances size out := by
  refine ⟨h.pos, h.chunkSize, List.Perm.trans ?_ h.all⟩
  show ((p.pool ++ [b'.lock] ++ out).map BufferChunk.key).Perm _
  rw [List.append_assoc, List.singleton_append, List.map_append, List.map_append, List.map_cons, List.map_cons, ← hb]
  rfl

theorem Balances.mapChunks (h : p.Balances size out) {f : BufferChunk → BufferChunk} (hf : ∀ b, (f b).key = b.key) :
    BufferPool.Balances { p with pool := p.pool.map f } size (out.map f) := by
  refine ⟨h.pos, h.chunkSize, ?_⟩
  show ((p.pool.map f ++ out.map f).map BufferChunk.key).Perm p.allocated
  rw [← List.map_append, List.map_map, show BufferChunk.key ∘ f = BufferChunk.key from funext hf]
  exact h.all

theorem Balances.len (h : p.Balances size out) (hb : b ∈ p.pool ++ out) : b.len = size := by
  have hm : b.key ∈ p.allocated := h.all.mem_iff.mp (List.mem_map_of_mem hb)
  obtain ⟨c, -, hc⟩ := List.mem_map.mp hm
  exact (congrArg Prod.snd hc).symm.trans h.chunkSize

theorem Balances.chunks (h : p.Balances size out) :
    ((p.pool ++ out).map (·.chunk)).Perm (List.range' 1 (p.nextChunk - 1)) := by
  have hm := h.all.map Prod.fst
  rw [allocated, List.map_map, List.map_map] at hm
  exact hm.trans (List.Perm.of_eq (List.map_id _))

/-- A chunk that is handed out has the size of all. -/
theorem Balances.len_getBuffer (h : p.Balances size out) (hg : p.getBuffer.1 = some b) : b.len = size := by
  have h' : p.getBuffer.2.Balances size (b :: out) := h.getBuffer (by rw [← hg])
  exact h'.len (List.mem_append_right _ (List.mem_cons_self ..))

theorem perm_firstChunks (len n : Nat) :
    ((firstChunks len n).map BufferChunk.key).Perm ((List.range' 1 n).map (·, len)) := by
  induction n with
  | zero => exact .refl _
  | succ n ih =>
    rw [List.range'_1_concat, List.map_append, Nat.add_comm 1 n]
    exact (ih.cons _).trans (List.perm_append_singleton _ _).symm

end BufferPool

/-! ## A pool in use -/

/-- One more lock on the chunk `c`, if `b` is this chunk. -/
def BufferChunk.cloneLock (c : ChunkId) (b : BufferChunk) : BufferChunk :=
  if b.chunk = c then { b with refCount := b.refCount + 1 } else b

/-- One lock less on it; the chunk's own reference stays. -/
def BufferChunk.dropLock (c : ChunkId) (b : BufferChunk) : BufferChunk :=
  if b.chunk = c ∧ 1 < b.refCount then { b with refCount := b.refCount - 1 } else b

theorem BufferChunk.key_cloneLock (c : ChunkId) (b : BufferChunk) : (b.cloneLock c).key = b.key := by
  unfold cloneLock
  split
  · rfl
  · rfl

theorem BufferChunk.key_dropLock (c : ChunkId) (b : BufferChunk) : (b.dropLock c).key = b.key := by
  unfold dropLock
  split
  · rfl
  · rfl

/-- A pool and the chunks that were handed out and not returned. -/
structure PoolUse where
  pool : BufferPool
  handedOut : List BufferChunk
  deriving DecidableEq, Repr

namespace PoolUse

/-- What the owner of the pool can do, and how the locks on its chunks come and go. -/
inductive Action where
  | getBuffer
  /-- The `k`-th chunk that was handed out is returned. -/
  | returnBuffer (k : Nat)
  | tryReserve (size : Nat)
  /-- A lease on a chunk is created. -/
  | cloneLock (c : ChunkId)
  /-- A lease on a chunk is released. -/
  | dropLock (c : ChunkId)
  deriving DecidableEq, Repr

def withConfig (cfg : PoolConfig) : Panics PoolUse := do
  let pool ← BufferPool.withConfig cfg
  return { pool, handedOut := [] }

/-- Change the chunks, wherever they are. -/
def mapChunks (f : BufferChunk → BufferChunk) (u : PoolUse) : PoolUse :=
  { pool := { u.pool with pool := u.pool.pool.map f }, handedOut := u.handedOut.map f }

def step (u : PoolUse) : Action → Option PoolUse
  | .getBuffer =>
    match u.pool.getBuffer with
    | (some buffer, pool) => some { pool, handedOut := buffer :: u.handedOut }
    | (none, pool) => some { u with pool }
  | .returnBuffer k =>
    match u.handedOut[k]? with
    | some buffer => some { pool := u.pool.returnBuffer buffer, handedOut := u.handedOut.eraseIdx k }
    | none => none
  | .tryReserve size => some { u with pool := (u.pool.tryReserve size).2 }
  | .cloneLock c => some (u.mapChunks (.cloneLock c))
  | .dropLock c => some (u.mapChunks (.dropLock c))

/-- Every chunk that was allocated is in the pool or handed out. -/
def Accounted (u : PoolUse) : Prop := u.pool.poolSize = u.pool.pool.length + u.handedOut.length

/-- The step is a reservation that drops chunks. -/
def Loses (u : PoolUse) : Action → Prop
  | .tryReserve size => u.pool.Loses size
  | _ => False

instance (u : PoolUse) (a : Action) : Decidable (u.Loses a) := by
  cases a <;> unfold Loses <;> infer_instance

instance (u : PoolUse) : Decidable u.Accounted := inferInstanceAs (Decidable (_ = _))

variable {u u' : PoolUse} {a : Action}

/-- The chunks nobody has: how many a step adds to them. -/
theorem step_spec (h : u.step a = some u') :
    u'.pool.maxPoolSize = u.pool.maxPoolSize ∧
      (u.pool.poolSize ≤ u.pool.maxPoolSize → u'.pool.poolSize ≤ u.pool.maxPoolSize) ∧
      ∃ lost, (lost = 0 ↔ ¬ u.Loses a) ∧ u'.pool.poolSize + (u.pool.pool.length + u.handedOut.length) =
        u.pool.poolSize + (u'.pool.pool.length + u'.handedOut.length) + lost := by
  cases a with
  | getBuffer =>
    obtain ⟨hsome, -, hmax, hle, hcount⟩ := u.pool.tryReclaim_spec
    simp only [step, BufferPool.getBuffer] at h
    generalize u.pool.tryReclaim = t at *
    obtain ⟨o, p'⟩ := t
    simp only at *
    cases o with
    | none =>
      have ha : ¬ 0 < u.pool.available := by simpa using hsome.symm
      rw [if_neg ha] at hcount
      obtain rfl := Option.some.inj h
      exact ⟨hmax, hle, 0, by simp [Loses], by simp only; omega⟩
    | some b =>
      have ha : 0 < u.pool.available := by simpa using hsome.symm
      rw [if_pos ha] at hcount
      obtain rfl := Option.some.inj h
      exact ⟨hmax, hle, 0, by simp [Loses], by simp only [List.length_cons]; omega⟩
  | returnBuffer k =>
    simp only [step] at h
    split at h
    swap
    · cases h
    rename_i b hk
    obtain rfl := Option.some.inj h
    have hlt : k < u.handedOut.length := (List.getElem?_eq_some_iff.mp hk).1
    refine ⟨rfl, id, 0, by simp [Loses], ?_⟩
    simp only [BufferPool.returnBuffer, List.length_append, List.length_singleton, List.length_eraseIdx, hlt, if_true]
    omega
  | tryReserve size =>
    obtain rfl := Option.some.inj h
    obtain ⟨hmax, hle, hcount⟩ := u.pool.tryReserve_spec size
    refine ⟨hmax, hle, if u.pool.Loses size then u.pool.available else 0, ?_, by simp only; omega⟩
    by_cases hl : u.pool.Loses size
    · rw [if_pos hl]
      exact iff_of_false (Nat.pos_iff_ne_zero.mp hl.2.2) (not_not.mpr hl)
    · rw [if_neg hl]
      exact iff_of_true rfl hl
  | cloneLock c =>
    obtain rfl := Option.some.inj h
    exact ⟨rfl, id, 0, by simp [Loses], by simp [mapChunks]⟩
  | dropLock c =>
    obtain rfl := Option.some.inj h
    exact ⟨rfl, id, 0, by simp [Loses], by simp [mapChunks]⟩

/-- From a state in which `lost` chunks are nobody's, a run ends with at least
as many, and with more of them exactly when a reservation dropped some. -/
theorem run_spec {as : List Action} {lost : Nat} (hr : runActions step u as = some u')
    (hle : u.pool.poolSize ≤ u.pool.maxPoolSize)
    (hlost : u.pool.poolSize = u.pool.pool.length + u.handedOut.length + lost) :
    u'.pool.maxPoolSize = u.pool.maxPoolSize ∧ u'.pool.poolSize ≤ u.pool.maxPoolSize ∧
      ∃ lost', u'.pool.poolSize = u'.pool.pool.length + u'.handedOut.length + lost' ∧ lost ≤ lost' ∧
        (lost' = lost ↔ runMeets step (fun u a => ¬ u.Loses a) u as) := by
  induction as generalizing u lost with
  | nil =>
    obtain rfl := Option.some.inj hr
    exact ⟨rfl, hle, lost, hlost, Nat.le_refl _, iff_of_true rfl trivial⟩
  | cons a as ih =>
    obtain ⟨u₁, hs, hr₁⟩ := Option.bind_eq_some_iff.mp hr
    obtain ⟨hmax, hle₁, d, hd, hcount⟩ := step_spec hs
    have hl₁ : u₁.pool.poolSize = u₁.pool.pool.length + u₁.handedOut.length + (lost + d) := by omega
    obtain ⟨hmax', hle', lost', hlost', hge, hiff⟩ := ih hr₁ (hmax ▸ hle₁ hle) hl₁
    refine ⟨hmax'.trans hmax, hmax ▸ hle', lost', hlost', by omega, ?_⟩
    constructor
    · intro he
      have h0 : d = 0 := by omega
      refine ⟨hd.mp h0, fun s' hs' => ?_⟩
      obtain rfl : u₁ = s' := by
        rw [hs] at hs'
        exact Option.some.inj hs'
      exact hiff.mp (by omega)
    · rintro ⟨hnl, hrest⟩
      have h0 := hd.mpr hnl
      have := hiff.mpr (hrest u₁ hs)
      omega

end PoolUse

theorem BufferPool.length_firstChunks (len n : Nat) : (firstChunks len n).length = n := by
  induction n with
  | zero => rfl
  | succ n ih => simp [firstChunks, ih]

/-- A pool is only made of a configuration that is valid. -/
theorem BufferPool.withConfig_ok {cfg : PoolConfig} {p : BufferPool} (h : withConfig cfg = .ok p) :
    cfg.validate = .ok () ∧ p = ⟨firstChunks cfg.chunkSize cfg.initialChunkCount, cfg.initialChunkCount, cfg.chunkSize,
      cfg.maxChunkCount, cfg.initialChunkCount + 1⟩ := by
  unfold withConfig at h
  cases hv : cfg.validate with
  | error e => rw [hv] at h; cases h
  | ok =>
    rw [hv] at h
    exact ⟨rfl, (Except.ok.inj h).symm⟩

theorem BufferPool.balances_withConfig {cfg : PoolConfig} {p : BufferPool} (h : withConfig cfg = .ok p) :
    p.Balances cfg.chunkSize [] := by
  obtain ⟨-, rfl⟩ := withConfig_ok h
  refine ⟨Nat.le_add_left _ _, rfl, ?_⟩
  rw [List.append_nil]
  exact perm_firstChunks _ _

/-- What a new pool looks like: all its chunks are in it, and the limit holds. -/
theorem PoolUse.withConfig_spec {cfg : PoolConfig} {u : PoolUse} (h : withConfig cfg = .ok u) :
    u.pool.maxPoolSize = cfg.maxChunkCount ∧ u.pool.poolSize ≤ cfg.maxChunkCount ∧ u.Accounted := by
  unfold withConfig at h
  cases hp : BufferPool.withConfig cfg with
  | error e => rw [hp] at h; cases h
  | ok p =>
    rw [hp] at h
    obtain ⟨hv, rfl⟩ := BufferPool.withConfig_ok hp
    obtain rfl := Except.ok.inj h
    refine ⟨rfl, (PoolConfig.of_validate hv).1, ?_⟩
    show cfg.initialChunkCount = (BufferPool.firstChunks _ cfg.initialChunkCount).length + 0
    rw [BufferPool.length_firstChunks, Nat.add_zero]

/-- In every run the pool never counts more chunks than its limit, and it counts
exactly those in it and those handed out as long as no reservation finds some
chunks but too few; a failing reservation keeps the chunks of the pool exactly
in this case. -/
theorem pool_accounting {cfg : PoolConfig} {u₀ u : PoolUse} {as : List PoolUse.Action}
    (h₀ : PoolUse.withConfig cfg = .ok u₀) (hr : runActions PoolUse.step u₀ as = some u) :
    u.pool.poolSize ≤ cfg.maxChunkCount ∧
      (u.Accounted ↔ runMeets PoolUse.step (fun u a => ¬ u.Loses a) u₀ as) ∧
      ∀ size e, (u.pool.tryReserve size).1 = .error e →
        (BufferPool.Kept u.pool (u.pool.tryReserve size).2 ↔ ¬ u.pool.Loses size) := by
  obtain ⟨hmax, hle, hacc⟩ := PoolUse.withConfig_spec h₀
  have hzero : u₀.pool.poolSize = u₀.pool.pool.length + u₀.handedOut.length + 0 := hacc
  obtain ⟨-, hle', lost, hlost, -, hiff⟩ := PoolUse.run_spec hr (hmax ▸ hle) hzero
  refine ⟨hmax ▸ hle', ?_, fun size e he => BufferPool.kept_iff he⟩
  rw [← hiff]
  unfold PoolUse.Accounted
  omega

/-- A pool of four chunks that runs a message through: nothing is lost. -/
theorem pool_accounting_four :
    ∃ u₀ u, PoolUse.withConfig ⟨⟨0⟩, 128, 1, 4⟩ = .ok u₀ ∧
      runActions PoolUse.step u₀ [.getBuffer, .tryReserve 256, .returnBuffer 0, .tryReserve 512, .getBuffer] =
        some u ∧ u.pool.poolSize ≤ 4 ∧ u.Accounted := by
  refine ⟨_, _, rfl, rfl, ?_⟩
  have h₀ : PoolUse.withConfig ⟨⟨0⟩, 128, 1, 4⟩ = .ok _ := rfl
  have h := pool_accounting h₀ (show runActions PoolUse.step _
    [.getBuffer, .tryReserve 256, .returnBuffer 0, .tryReserve 512, .getBuffer] = some _ from rfl)
  exact ⟨h.1, h.2.1.mpr (by decide)⟩

/-- One of the four chunks of a pool is leased and three are reserved: the
three are dropped when there is no fourth. -/
theorem pool_loses_chunks :
    ¬ ∀ (cfg : PoolConfig) (u₀ u : PoolUse) (as : List PoolUse.Action), PoolUse.withConfig cfg = .ok u₀ →
      runActions PoolUse.step u₀ as = some u → u.Accounted := by
  intro hall
  have h := hall ⟨⟨0⟩, 128, 1, 4⟩ _ _ [.getBuffer, .cloneLock 1, .returnBuffer 0, .tryReserve 512] rfl rfl
  exact absurd h (by decide)

end Kompact
