import Kompact.Buffers.DecodeLaw

/-!
# Decoding any stream

What the decode buffer does on bytes that need not be frames. Looking for a
frame never panics. Taking one does if there is a frame in the buffer whose body
is not as its type needs it: `Hello` and `Start` bodies are read without a check
of their length and panic at an unknown version of the address, and a lease of
no bytes is only possible at the front of the chain (`FrameSound`).

`run_ok_iff` says so of whole runs: a sequence of calls panics if and only if
one of them takes such a frame.
-/

namespace Kompact

/-! ## Bodies -/

/-- The length of the address that the first byte announces. -/
def addrLen (bs : List UInt8) : Option Nat :=
  match bs.head? with
  | some 4 => some 7
  | some 6 => some 19
  | _ => none

/-- There is an address at the start of the bytes, and `extra` bytes after it. -/
def AddrThere (extra : Nat) (bs : List UInt8) : Prop := ∃ n ∈ addrLen bs, n + extra ≤ bs.length

theorem ChunkLease.getUint_eq (m : Mem) {l : ChunkLease} (h : l.WF) (w : Nat) :
    l.getUint m w = if (l.unread m).length < w then .error "advance out of bounds"
      else .ok (ofBE ((l.unread m).take w), l.advance w) := by
  split
  · rename_i hs
    rw [h.length_unread] at hs
    simp only [getUint, copyToSlice, if_pos hs]
  · rename_i hs
    exact getUint_spec m h (by omega)

/-- An IP address of `k` bytes and a port are read, or there are too few bytes. -/
theorem readAddr_eq (m : Mem) {l : ChunkLease} (h : l.WF) (k : Nat) (addr : Nat → Nat → SocketAddr) :
    (do
      let (ip, src) ← l.getUint m k
      let (port, src) ← src.getUint m 2
      return (addr ip port, src) : Panics (SocketAddr × ChunkLease)) =
      if (l.unread m).length < k + 2 then .error "advance out of bounds"
      else .ok (addr (ofBE ((l.unread m).take k)) (ofBE (((l.unread m).drop k).take 2)), l.advance (k + 2)) := by
  rw [l.getUint_eq m h]
  by_cases hk : (l.unread m).length < k
  · rw [if_pos hk, if_pos (by omega)]
    rfl
  · rw [if_neg hk]
    simp only [bind, Except.bind, ChunkLease.getUint_eq m (h.advance k), ChunkLease.unread_advance, List.length_drop,
      ChunkLease.advance_advance]
    by_cases h2 : (l.unread m).length < k + 2
    · rw [if_pos h2, if_pos (by omega)]
    · rw [if_neg h2, if_neg (by omega)]
      rfl

/-- An address is read from a lease, or there is a panic and no address in it. -/
theorem decodeAddrFrom_cases (m : Mem) {l : ChunkLease} (h : l.WF) :
    (∃ n a, n ∈ addrLen (l.unread m) ∧ n ≤ (l.unread m).length ∧ decodeAddrFrom m l = .ok (a, l.advance n)) ∨
      ((∀ n ∈ addrLen (l.unread m), (l.unread m).length < n) ∧ ∃ e, decodeAddrFrom m l = .error e) := by
  unfold decodeAddrFrom
  rw [l.getUint_eq m h]
  cases hbs : l.unread m with
  | nil => exact .inr ⟨(fun n hn => by cases hn), _, rfl⟩
  | cons b bs =>
    have h1 : (l.advance 1).unread m = bs := by rw [ChunkLease.unread_advance, hbs]; rfl
    have hb : ofBE ((b :: bs).take 1) = b.toNat := by simp [ofBE]
    have hlen : (b :: bs).length = bs.length + 1 := rfl
    rw [if_neg (by omega), hb, hlen]
    simp only [bind, Except.bind]
    by_cases h4 : b.toNat = 4
    · obtain rfl : b = 4 := UInt8.toNat_inj.mp h4
      rw [if_pos h4]
      have hrun := readAddr_eq m (h.advance 1) 4 fun ip port => .new (.v4 (.ofNat 32 ip)) (.ofNat 16 port)
      rw [h1, ChunkLease.advance_advance] at hrun
      by_cases hs : bs.length < 6
      · rw [if_pos hs] at hrun
        refine .inr ⟨fun n hn => ?_, _, hrun⟩
        obtain rfl := Option.some.inj hn
        omega
      · rw [if_neg hs] at hrun
        exact .inl ⟨7, _, rfl, by omega, hrun⟩
    rw [if_neg h4]
    by_cases h6 : b.toNat = 6
    · obtain rfl : b = 6 := UInt8.toNat_inj.mp h6
      rw [if_pos h6]
      have hrun := readAddr_eq m (h.advance 1) 16 fun ip port => .new (.v6 (.ofNat 128 ip)) (.ofNat 16 port)
      rw [h1, ChunkLease.advance_advance] at hrun
      by_cases hs : bs.length < 18
      · rw [if_pos hs] at hrun
        refine .inr ⟨fun n hn => ?_, _, hrun⟩
        obtain rfl := Option.some.inj hn
        omega
      · rw [if_neg hs] at hrun
        exact .inl ⟨19, _, rfl, by omega, hrun⟩
    · rw [if_neg h6]
      refine .inr ⟨fun n hn => ?_, _, rfl⟩
      have h4' : b ≠ 4 := fun he => h4 (by rw [he]; rfl)
      have h6' : b ≠ 6 := fun he => h6 (by rw [he]; rfl)
      simp [addrLen, h4', h6'] at hn

/-- No address in the bytes, with or without something after it. -/
theorem not_addrThere {bs : List UInt8} (h : ∀ n ∈ addrLen bs, bs.length < n) (extra : Nat) : ¬ AddrThere extra bs := by
  rintro ⟨n, hn, hle⟩
  have := h n hn
  omega

theorem decodeHelloFrom_ok_iff (m : Mem) {l : ChunkLease} (h : l.WF) :
    (∃ r, decodeHelloFrom m l = .ok r) ↔ AddrThere 0 (l.unread m) := by
  unfold decodeHelloFrom
  rcases decodeAddrFrom_cases m h with ⟨n, a, hn, hle, hd⟩ | ⟨hshort, e, hd⟩
  · rw [hd]
    exact iff_of_true ⟨_, rfl⟩ ⟨n, hn, hle⟩
  · rw [hd]
    refine iff_of_false ?_ (not_addrThere hshort 0)
    rintro ⟨r, hr⟩
    cases hr

theorem decodeStartFrom_ok_iff (m : Mem) {l : ChunkLease} (h : l.WF) :
    (∃ r, decodeStartFrom m l = .ok r) ↔ AddrThere 16 (l.unread m) := by
  unfold decodeStartFrom
  rcases decodeAddrFrom_cases m h with ⟨n, a, hn, hle, hd⟩ | ⟨hshort, e, hd⟩
  · rw [hd]
    simp only [bind, Except.bind, ChunkLease.getUint_eq m (h.advance n), ChunkLease.unread_advance,
      List.length_drop]
    by_cases hs : (l.unread m).length - n < 16
    · rw [if_pos hs]
      refine iff_of_false ?_ ?_
      · rintro ⟨r, hr⟩
        cases hr
      · rintro ⟨n', hn', hle'⟩
        obtain rfl := Option.some.inj (hn.symm.trans hn')
        omega
    · rw [if_neg hs]
      exact iff_of_true ⟨_, rfl⟩ ⟨n, hn, by omega⟩
  · rw [hd]
    refine iff_of_false ?_ (not_addrThere hshort 16)
    rintro ⟨r, hr⟩
    cases hr

/-- A head that is not one is reported as such, with the bytes after its magic
number. -/
theorem decodeFrom_error (m : Mem) {l : ChunkLease} (h : l.WF) (h0 : l.readPointer = 0)
    (hl : (l.unread m).length = frameHeadLen) (hd : frameFormat.decodeHead (l.unread m) = .error ()) :
    ∃ e, FrameHead.decodeFrom m l = .ok (.error e) := by
  have hlen : (l.unread m).length = 9 := hl
  have hcap : l.capacity = 9 := by rw [h.length_unread, ChunkLease.remaining, h0, Nat.sub_zero] at hlen; exact hlen
  have hmagic : ofBE ((l.unread m).take 4) ≠ magicNum := by
    intro he
    simp only [frameFormat, if_pos he] at hd
    cases hd
  have hr : ¬ l.remaining < frameHeadLen := by rw [← h.length_unread m, hl]; exact Nat.lt_irrefl _
  obtain ⟨s, hs, -⟩ := ChunkLease.getChunkAt_spec (h.advance 4) 4 (by rw [ChunkLease.capacity_advance]; omega)
  have hchunk : (l.advance 4).chunk = .ok s := by
    rw [ChunkLease.chunk, ChunkLease.readPointer_advance, h0]
    exact hs
  rw [FrameHead.decodeFrom, if_neg hr, getUint_bind m h (by omega)]
  simp only [ne_eq, hmagic, not_false_eq_true, if_true, bind, Except.bind, hchunk]
  exact ⟨_, rfl⟩

namespace DecodeBuffer

/-! ## Taking a frame -/

/-- Taking a head does what the format's `fetchHead` does, when that fails. -/
theorem decodeFrameHead_error {m : Mem} {d : DecodeBuffer} (h : d.Inv) {v : Decoder UInt8 FrameHead}
    (hf : frameFormat.fetchHead (d.view m) = (.error (), v)) :
    ∃ e d', d.decodeFrameHead m = .ok (.error e, d') ∧ d'.Inv ∧ d'.view m = v := by
  have hlen := h.length_readable m
  cases hh : d.nextFrameHead with
  | some head =>
    simp only [FrameFormat.fetchHead, view, hh] at hf
    cases hf
  | none =>
    simp only [FrameFormat.fetchHead, view, hh, hlen] at hf
    by_cases hl : frameHeadLen ≤ d.readableLen
    · rw [if_pos (show frameFormat.headLen ≤ d.readableLen from hl)] at hf
      obtain ⟨l, d', hr, rd, hu, hul⟩ := readHead_spec (m := m) h hl
      split at hf
      · cases hf
      · rename_i hd
        obtain ⟨e, he⟩ := decodeFrom_error m rd.wf rd.readPointer hul (by rw [hu]; exact hd)
        refine ⟨e, d', ?_, rd.inv, ?_⟩
        · simp only [decodeFrameHead, hh, Option.isNone_none, hl, and_self, ite_true, hr]
          show (FrameHead.decodeFrom m l >>= _) = _
          rw [he]; rfl
        · rw [← (Prod.mk.inj hf).2, view, rd.head, hh, rd.rest m]
          rfl
    · rw [if_neg (show ¬ frameFormat.headLen ≤ d.readableLen from hl)] at hf
      cases hf

/-- The chain is not used up by the head of the next frame. -/
def ChainLeft (d : DecodeBuffer) : Prop :=
  ∃ l ∈ d.chainHead, d.nextFrameHead.isSome ∨ frameHeadLen < l.remaining

/-- Something is left of the chain when it has more bytes than are read. -/
theorem chainHead_readChunkLease {d d' : DecodeBuffer} {n : Nat} {lease : ChunkLease}
    (h : d.readChunkLease n = .ok (lease, d')) : d'.chainHead.isSome ↔ ∃ l ∈ d.chainHead, n < l.remaining := by
  unfold readChunkLease at h
  cases hl : d.chainHead with
  | none =>
    simp only [hl] at h
    obtain ⟨⟨l, b⟩, -, h⟩ := Panics.bind_eq_ok.mp h
    rw [← (Prod.mk.inj (Except.ok.inj h)).2]
    simp
  | some l =>
    simp only [hl] at h
    by_cases hlt : n < l.remaining
    · rw [if_pos hlt] at h
      obtain ⟨⟨head, tail⟩, -, h⟩ := Panics.bind_eq_ok.mp h
      rw [← (Prod.mk.inj (Except.ok.inj h)).2]
      simp [hlt]
    rw [if_neg hlt] at h
    by_cases heq : l.remaining = n
    · rw [if_pos heq] at h
      rw [← (Prod.mk.inj (Except.ok.inj h)).2]
      simp [hlt]
    · rw [if_neg heq] at h
      obtain ⟨⟨tail, b⟩, -, h⟩ := Panics.bind_eq_ok.mp h
      rw [← (Prod.mk.inj (Except.ok.inj h)).2]
      simp [hlt]

/-- When a head is there, what is left of the chain. -/
theorem chainHead_decodeFrameHead {m : Mem} {d d' : DecodeBuffer} {r : Except FramingError Unit}
    (h : d.decodeFrameHead m = .ok (r, d')) (hh : d'.nextFrameHead.isSome) : d'.chainHead.isSome ↔ d.ChainLeft := by
  unfold decodeFrameHead at h
  by_cases hc : d.nextFrameHead.isNone ∧ frameHeadLen ≤ d.readableLen
  · have hnone : d.nextFrameHead.isSome = false := by simpa using hc.1
    rw [if_pos hc] at h
    obtain ⟨⟨lease, d₁⟩, hr, h⟩ := Panics.bind_eq_ok.mp h
    obtain ⟨r', -, h⟩ := Panics.bind_eq_ok.mp h
    have hchain : d'.chainHead = d₁.chainHead := by
      cases r' with
      | error e => rw [← (Prod.mk.inj (Except.ok.inj h)).2]
      | ok head => rw [← (Prod.mk.inj (Except.ok.inj h)).2]
    rw [hchain, chainHead_readChunkLease hr]
    unfold ChainLeft
    simp only [hnone, Bool.false_eq_true, false_or]
  · rw [if_neg hc] at h
    obtain ⟨-, rfl⟩ := Prod.mk.inj (Except.ok.inj h)
    cases hl : d.chainHead with
    | none => simp [ChainLeft, hl]
    | some l => simp [ChainLeft, hl, hh]

/-- The head of the frame that is next, and the readable bytes after it. -/
def nextFrame (m : Mem) (d : DecodeBuffer) : Option (FrameHead × List UInt8) :=
  match frameFormat.fetchHead (d.view m) with
  | (.error _, _) => none
  | (.ok _, v) => v.pending.map fun head => (head, v.buf)

/-- A body that is decoded without a panic; `chained` if some bytes of the chain
are left. -/
def BodySound (chained : Prop) (head : FrameHead) (bs : List UInt8) : Prop :=
  match head.frameType with
  | .data => 0 < head.contentLength ∨ chained
  | .hello => AddrThere 0 (bs.take head.contentLength)
  | .start => AddrThere 16 (bs.take head.contentLength)
  | .ack => True
  | .bye => True
  | .unknown => True

/-- The next frame, if all of it is there, has a body that is decoded without a
panic. -/
def FrameSound (m : Mem) (d : DecodeBuffer) : Prop :=
  ∀ head bs, d.nextFrame m = some (head, bs) → head.contentLength ≤ bs.length → BodySound d.ChainLeft head bs

theorem readChunkLease_empty {d : DecodeBuffer} (h : d.chainHead = none) : ∃ e, d.readChunkLease 0 = .error e := by
  simp only [readChunkLease, h, BufferChunk.getLease, BufferChunk.getSlice, Nat.add_zero, Nat.lt_irrefl, false_and,
    if_false]
  exact ⟨_, rfl⟩

/-- A body that is read from a lease of its bytes, by a decoder that panics unless
there is a sound address in them. -/
theorem decodeAddrBody_cases {m : Mem} {d : DecodeBuffer} (h : d.Inv) {n extra : Nat} (hl : n ≤ d.readableLen)
    {decode : ChunkLease → Panics (Except FramingError Frame)}
    (hdec : ∀ l : ChunkLease, l.WF → ((∃ r, decode l = .ok r) ↔ AddrThere extra (l.unread m)))
    {run : Panics (Except FramingError Frame × DecodeBuffer)}
    (hrun : run = d.readChunkLease n >>= fun x => decode x.1 >>= fun r => pure (invalidFrame r, x.2)) :
    (AddrThere extra ((d.readable m).take n) ∧ ∃ r d', run = .ok (r, d') ∧ d'.Inv) ∨
      (¬ AddrThere extra ((d.readable m).take n) ∧ ∃ e, run = .error e) := by
  subst hrun
  by_cases hpos : 0 < n ∨ d.chainHead.isSome
  · obtain ⟨l, d', hr, rd⟩ := readChunkLease_reads h hpos hl
    have hu : l.unread m = (d.readable m).take n := by
      rw [ChunkLease.unread, rd.readPointer, List.drop_zero, rd.bytes]
    rw [hr, ← hu, ← hdec l rd.wf]
    cases hd : decode l with
    | error e =>
      refine .inr ⟨?_, e, ?_⟩
      · rintro ⟨r, hr⟩
        cases hr
      · simp only [bind, Except.bind, hd]
    | ok r => exact .inl ⟨⟨r, rfl⟩, _, d', by simp only [bind, Except.bind, hd]; rfl, rd.inv⟩
  · obtain ⟨h0, hnone⟩ := not_or.mp hpos
    obtain rfl : n = 0 := by omega
    obtain ⟨e, he⟩ := readChunkLease_empty (by simpa using hnone)
    refine .inr ⟨?_, e, by rw [he]; rfl⟩
    rintro ⟨k, hk, -⟩
    cases hk

theorem decodeBody_cases {m : Mem} {d : DecodeBuffer} (h : d.Inv) {head : FrameHead}
    (hl : head.contentLength ≤ d.readableLen) :
    (BodySound d.chainHead.isSome head (d.readable m) ∧ ∃ r d', d.decodeBody m head = .ok (r, d') ∧ d'.Inv) ∨
      (¬ BodySound d.chainHead.isSome head (d.readable m) ∧ ∃ e, d.decodeBody m head = .error e) := by
  obtain ⟨t, n⟩ := head
  cases t with
  | data =>
    by_cases hpos : 0 < n ∨ d.chainHead.isSome
    · obtain ⟨l, d', hr, rd⟩ := readChunkLease_reads h hpos hl
      exact .inl ⟨hpos, _, d', by simp only [decodeBody, hr]; rfl, rd.inv⟩
    · obtain ⟨h0, hnone⟩ := not_or.mp hpos
      obtain rfl : n = 0 := by omega
      obtain ⟨e, he⟩ := readChunkLease_empty (by simpa using hnone)
      exact .inr ⟨hpos, e, by simp only [decodeBody, he]; rfl⟩
  | hello => exact decodeAddrBody_cases h hl (fun l hwf => decodeHelloFrom_ok_iff m hwf) rfl
  | start => exact decodeAddrBody_cases h hl (fun l hwf => decodeStartFrom_ok_iff m hwf) rfl
  | ack => exact .inl ⟨trivial, _, d, rfl, h⟩
  | bye => exact .inl ⟨trivial, _, d, rfl, h⟩
  | unknown => exact .inl ⟨trivial, _, d, rfl, h⟩

/-- Taking a frame returns, and keeps the invariant, or the next frame is not sound
and there is a panic. -/
theorem getFrame_cases {m : Mem} {d : DecodeBuffer} (h : d.Inv) :
    (d.FrameSound m ∧ ∃ r d', d.getFrame m = .ok (r, d') ∧ d'.Inv) ∨
      (¬ d.FrameSound m ∧ ∃ e, d.getFrame m = .error e) := by
  cases hf : frameFormat.fetchHead (d.view m) with
  | mk r v =>
    cases r with
    | error u =>
      obtain ⟨e, d', hd, hinv, -⟩ := decodeFrameHead_error h hf
      refine .inl ⟨fun head bs hn => ?_, _, d', by rw [getFrame, hd]; rfl, hinv⟩
      rw [nextFrame, hf] at hn
      cases hn
    | ok u =>
      obtain ⟨d', hd, hinv, rfl⟩ := decodeFrameHead_spec h hf
      rw [getFrame_eq hd]
      cases hhead : d'.nextFrameHead with
      | none =>
        rw [show d'.readyHead = none by rw [readyHead, hhead]; rfl]
        refine .inl ⟨fun head bs hn => ?_, _, d', rfl, hinv⟩
        rw [nextFrame, hf] at hn
        simp [view, hhead] at hn
      | some head =>
        have hnext : d.nextFrame m = some (head, d'.readable m) := by
          rw [nextFrame, hf]
          simp [view, hhead]
        by_cases hl : head.contentLength ≤ d'.readableLen
        · rw [show d'.readyHead = some head by simp [readyHead, hhead, hl]]
          have hsound : d.FrameSound m ↔ BodySound d.ChainLeft head (d'.readable m) := by
            constructor
            · exact fun hs => hs _ _ hnext (by rw [hinv.length_readable]; exact hl)
            · intro hs head' bs hn _
              obtain ⟨rfl, rfl⟩ := Prod.mk.inj (Option.some.inj (hnext.symm.trans hn))
              exact hs
          rw [hsound, ← chainHead_decodeFrameHead hd (by rw [hhead]; rfl)]
          exact decodeBody_cases (hinv.setHead none) hl
        · rw [show d'.readyHead = none by simp [readyHead, hhead]; omega]
          refine .inl ⟨fun head' bs hn hle => ?_, _, d', rfl, hinv⟩
          obtain ⟨rfl, rfl⟩ := Prod.mk.inj (Option.some.inj (hnext.symm.trans hn))
          exact absurd (by rw [← hinv.length_readable m]; exact hle) hl

end DecodeBuffer

namespace Decoding

/-! ## Runs -/

variable {w : World}

/-- A call that does not panic: the next frame is sound if it takes one. -/
def Op.Sound (w : World) : Op → Prop
  | getFrame => w.buf.FrameSound w.mem
  | _ => True

/-- Every call of the sequence is sound where it is made. -/
def SoundRun (w : World) : List Op → Prop
  | [] => True
  | op :: ops => op.Sound w ∧ ∀ out w', op.step w = .ok (out, w') → SoundRun w' ops

/-- Looking for a frame does not panic. -/
theorem hasFrame_ok {m : Mem} {d : DecodeBuffer} (h : d.Inv) :
    ∃ r d', d.hasFrame m = .ok (r, d') ∧ d'.Inv := by
  cases hf : frameFormat.fetchHead (d.view m) with
  | mk r v =>
    cases r with
    | error u =>
      obtain ⟨e, d', hd, hinv, -⟩ := d.decodeFrameHead_error h hf
      exact ⟨_, d', by rw [DecodeBuffer.hasFrame, hd]; rfl, hinv⟩
    | ok u =>
      obtain ⟨d', hd, hinv, -⟩ := d.decodeFrameHead_spec h hf
      exact ⟨_, d', by rw [DecodeBuffer.hasFrame, hd]; rfl, hinv⟩

/-- One call: it returns, and keeps the invariant, or takes a frame that is not
sound and panics. -/
theorem step_cases {op : Op} (h : w.buf.Inv) (hl : op.Legal w) :
    (op.Sound w ∧ ∃ out w', op.step w = .ok (out, w') ∧ w'.buf.Inv) ∨
      (¬ op.Sound w ∧ ∃ e, op.step w = .error e) := by
  cases op with
  | write bs =>
    obtain ⟨hw, hlen⟩ := hl
    refine .inl ⟨trivial, .wrote, ⟨w.mem.write w.buf.buffer.chunk w.buf.writeOffset bs,
      w.buf.advanceWriteable bs.length⟩, ?_, (w.buf.view_write h w.mem hlen).1⟩
    simp only [Op.step, w.buf.getWriteable_spec h, hw]
    rfl
  | hasFrame =>
    obtain ⟨r, d', hd, hinv⟩ := hasFrame_ok (m := w.mem) h
    refine .inl ⟨trivial, .hasFrame r, ⟨w.mem, d'⟩, ?_, hinv⟩
    simp only [Op.step, hd, bind, Except.bind]
    rfl
  | getFrame =>
    rcases DecodeBuffer.getFrame_cases (m := w.mem) h with ⟨hs, r, d', hd, hinv⟩ | ⟨hs, e, hd⟩
    · refine .inl ⟨hs, .frame (r.map (Frame.view w.mem)), ⟨w.mem, d'⟩, ?_, hinv⟩
      simp only [Op.step, hd, bind, Except.bind]
      rfl
    · refine .inr ⟨hs, e, ?_⟩
      simp only [Op.step, hd, bind, Except.bind]
  | swapBuffer other =>
    obtain ⟨m', d', other', hs, hinv, -⟩ := DecodeBuffer.swapBuffer_spec (m := w.mem) h hl.1 hl.2
    refine .inl ⟨trivial, .swapped, ⟨m', d'⟩, ?_, hinv⟩
    simp only [Op.step, hs, bind, Except.bind]
    rfl

theorem run_cons_eq {op : Op} {ops : List Op} {out : Output} {w' : World} (h : op.step w = .ok (out, w')) :
    run w (op :: ops) = (run w' ops).map fun r => (out :: r.1, r.2) := by
  simp only [run, h, bind, Except.bind]
  cases run w' ops <;> rfl

/-- A run panics if and only if one of its calls takes a frame that is not sound, by
induction on the calls. -/
theorem run_ok_iff_of_inv {ops : List Op} (h : w.buf.Inv) (hl : LegalRun w ops) :
    (∃ outs w', run w ops = .ok (outs, w')) ↔ SoundRun w ops := by
  induction ops generalizing w with
  | nil => exact iff_of_true ⟨_, _, rfl⟩ trivial
  | cons op ops ih =>
    obtain ⟨hop, hrest⟩ := hl
    rcases step_cases h hop with ⟨hs, out, w', hstep, hinv⟩ | ⟨hs, e, hstep⟩
    · rw [hstep] at hrest
      have hrun : (∃ outs w'', run w (op :: ops) = .ok (outs, w'')) ↔ ∃ outs w'', run w' ops = .ok (outs, w'') := by
        rw [run_cons_eq hstep]
        cases run w' ops with
        | error e => exact ⟨(fun ⟨_, _, hr⟩ => by cases hr), (fun ⟨_, _, hr⟩ => by cases hr)⟩
        | ok r => exact ⟨fun _ => ⟨_, _, rfl⟩, fun _ => ⟨_, _, rfl⟩⟩
      rw [hrun, ih hinv hrest]
      constructor
      · intro hsound
        refine ⟨hs, fun out' w'' hstep' => ?_⟩
        obtain ⟨-, rfl⟩ := Prod.mk.inj (Except.ok.inj (hstep.symm.trans hstep'))
        exact hsound
      · exact fun hsound => hsound.2 _ _ hstep
    · refine iff_of_false ?_ fun hsound => hs hsound.1
      rintro ⟨outs, w', hr⟩
      simp only [run, hstep, bind, Except.bind] at hr
      cases hr

/-- Whatever the stream is, however it is cut into writes and whatever else is
called in between: the calls panic if and only if one of them takes a frame that
is not sound. -/
theorem run_ok_iff (cfg : BufferConfig) (chunk : BufferChunk) (m : Mem) (hu : chunk.locked = false) (ops : List Op)
    (hl : LegalRun ⟨m, .new chunk cfg⟩ ops) :
    (∃ outs w', run ⟨m, .new chunk cfg⟩ ops = .ok (outs, w')) ↔ SoundRun ⟨m, .new chunk cfg⟩ ops :=
  run_ok_iff_of_inv (DecodeBuffer.inv_new hu cfg) hl

/-- Bytes that are no frame, and then a data frame that is cut by a swap. -/
theorem run_ok_iff_garbage :
    SoundRun ⟨fun _ _ => 0, .new ⟨1, 32, 1, false⟩ ⟨8⟩⟩
      [.write [1, 2, 3, 4, 5, 6, 7, 8, 9], .getFrame, .write [0xC0, 0xA1, 0xBA, 0x11, 0, 0], .getFrame,
        .swapBuffer ⟨2, 16, 1, false⟩, .write [0, 1, 2, 1], .hasFrame, .getFrame] :=
  (run_ok_iff ⟨8⟩ ⟨1, 32, 1, false⟩ (fun _ _ => 0) rfl _ (by decide)).mp ⟨_, _, rfl⟩

/-- An empty data frame, a `Hello` with an address of an unknown version, and a
`Start` without a session. -/
theorem run_panics :
    (LegalRun ⟨fun _ _ => 0, .new ⟨1, 64, 1, false⟩ ⟨8⟩⟩
        [.write [0xC0, 0xA1, 0xBA, 0x11, 0, 0, 0, 0, 2], .getFrame] ∧
      run ⟨fun _ _ => 0, .new ⟨1, 64, 1, false⟩ ⟨8⟩⟩ [.write [0xC0, 0xA1, 0xBA, 0x11, 0, 0, 0, 0, 2], .getFrame] =
        .error "assertion failed: from < to && to <= self.len() && !self.locked") ∧
    (LegalRun ⟨fun _ _ => 0, .new ⟨1, 64, 1, false⟩ ⟨8⟩⟩
        [.write [0xC0, 0xA1, 0xBA, 0x11, 0, 0, 0, 7, 4, 5, 127, 0, 0, 1, 0, 80], .getFrame] ∧
      run ⟨fun _ _ => 0, .new ⟨1, 64, 1, false⟩ ⟨8⟩⟩
        [.write [0xC0, 0xA1, 0xBA, 0x11, 0, 0, 0, 7, 4, 5, 127, 0, 0, 1, 0, 80], .getFrame] =
        .error "Faulty Hello Message!") ∧
    (LegalRun ⟨fun _ _ => 0, .new ⟨1, 64, 1, false⟩ ⟨8⟩⟩
        [.write [0xC0, 0xA1, 0xBA, 0x11, 0, 0, 0, 7, 5, 4, 127, 0, 0, 1, 0, 80], .getFrame] ∧
      run ⟨fun _ _ => 0, .new ⟨1, 64, 1, false⟩ ⟨8⟩⟩
        [.write [0xC0, 0xA1, 0xBA, 0x11, 0, 0, 0, 7, 5, 4, 127, 0, 0, 1, 0, 80], .getFrame] =
        .error "advance out of bounds") :=
  ⟨⟨by decide, rfl⟩, ⟨by decide, rfl⟩, by decide, rfl⟩

end Decoding

end Kompact
