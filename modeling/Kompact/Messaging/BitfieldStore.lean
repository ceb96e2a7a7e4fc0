import Kompact.Buffers.Memory
import Kompact.Framework.BitArray
import Kompact.Messaging.Bitfields

/-!
# Stores and reads of bit fields

`check_field`, `store` and `get_as` with their arithmetic on `usize` and their
indexing. A store that gets through writes the low bits of the value at the
place of the field and nothing else (`store_writes`), and a read gives the bits
there (`getAs_bits`).

Whether that is so of every field that `check_field` accepts depends on its
sum of `POS` and `WIDTH`: without overflow checks a sum from 2^64 on wraps, and
a field outside the array is accepted (`fieldsHold_iff`).
-/

namespace Kompact.BitFieldExt

open Bitfields (BitField Error bitsPerByte getBit setBitTo)

/-! ## The operations -/

/-- `usize` addition, which panics with overflow checks and wraps without them. -/
def addUsize (debug : Bool) (a b : Nat) : Panics Nat :=
  if debug = true ∧ 2 ^ 64 ≤ a + b then .error "attempt to add with overflow" else .ok ((a + b) % 2 ^ 64)

def mulUsize (debug : Bool) (a b : Nat) : Panics Nat :=
  if debug = true ∧ 2 ^ 64 ≤ a * b then .error "attempt to multiply with overflow" else .ok ((a * b) % 2 ^ 64)

variable {α β : Type}

def checkField (debug : Bool) (storage : List UInt8) (field : BitField α) : Panics (Except Error Unit) := do
  if bitsPerByte < field.width then
    return .error .overflow
  let supportedBits ← mulUsize debug bitsPerByte storage.length
  let fieldEnd ← addUsize debug field.pos field.width
  return if supportedBits < fieldEnd then .error .overflow else .ok ()

/-- One round of the loop of `store`. -/
def storeBit (debug : Bool) (repr : UInt8) (pos : Nat) (storage : List UInt8) (i : Nat) : Panics (List UInt8) := do
  let idx ← addUsize debug pos i
  if idx / 8 < storage.length then
    return storage.modify (idx / 8) fun b => setBitTo b (idx % 8) (getBit repr i)
  else throw "index out of bounds"

/-- The array is returned with the result, whichever that is. -/
def store (debug : Bool) (storage : List UInt8) (field : BitField α) (value : α) :
    Panics (Except Error Unit × List UInt8) := do
  match ← checkField debug storage field with
  | .error e => return (.error e, storage)
  | .ok () =>
    let repr := field.into value
    let storage ← (List.range field.width).foldlM (storeBit debug repr field.pos) storage
    return (.ok (), storage)

/-- One round of the loop of `get_as`. -/
def readBit (debug : Bool) (storage : List UInt8) (pos : Nat) (repr : UInt8) (i : Nat) : Panics UInt8 := do
  let idx ← addUsize debug pos i
  match storage[idx / 8]? with
  | some b => return setBitTo repr i (getBit b (idx % 8))
  | none => throw "index out of bounds"

/-- `try_from` with its error mapped. -/
def convert (field : BitField α) (repr : UInt8) : Except Error α :=
  match field.tryFrom repr with
  | some value => .ok value
  | none => .error .tryFromErr

/-- The array is borrowed only and cannot change. -/
def getAs (debug : Bool) (storage : List UInt8) (field : BitField α) : Panics (Except Error α) := do
  match ← checkField debug storage field with
  | .error e => return .error e
  | .ok () =>
    let repr ← (List.range field.width).foldlM (readBit debug storage field.pos) 0
    return convert field repr

/-! ## What fields must do -/

/-- `POS` and `WIDTH`. -/
structure Place where
  pos : Nat
  width : Nat
  pos_lt : pos < 2 ^ 64
  width_lt : width < 2 ^ 64

/-- A field with these constants. -/
def Place.field (p : Place) (into : α → UInt8) (tryFrom : UInt8 → Option α) : BitField α :=
  ⟨p.pos, p.width, into, tryFrom⟩

def Place.Contains (p : Place) (k : Nat) : Prop := p.pos ≤ k ∧ k < p.pos + p.width

def Place.Disjoint (p q : Place) : Prop := ∀ k, p.Contains k → ¬q.Contains k

def lowBits (width : Nat) (repr : UInt8) : UInt8 := .ofNat (repr.toNat % 2 ^ width)

variable (debug : Bool) (storage : List UInt8) (p q : Place)

/-- `check_field` looks at the constants only. -/
def Accepted : Prop := checkField debug storage (p.field id some) = .ok (.ok ())

/-- Every value is stored, read back, and no bit outside the field changes. -/
def Stores : Prop :=
  ∀ {α : Type} (into : α → UInt8) (tryFrom : UInt8 → Option α) (value : α), ∃ storage',
    store debug storage (p.field into tryFrom) value = .ok (.ok (), storage') ∧
      getAs debug storage' (p.field into tryFrom) =
        .ok (convert (p.field into tryFrom) (lowBits p.width (into value))) ∧
      storage'.length = storage.length ∧ ∀ k, ¬p.Contains k → bitAt storage' k = bitAt storage k

/-- Stores commute, and neither is seen by a read of the other field. -/
def Independent : Prop :=
  ∀ {α β : Type} (into : α → UInt8) (tryFrom : UInt8 → Option α) (into' : β → UInt8) (tryFrom' : UInt8 → Option β)
    (value : α) (value' : β), ∃ storage₁ storage₂ storage₁₂,
      store debug storage (p.field into tryFrom) value = .ok (.ok (), storage₁) ∧
      store debug storage (q.field into' tryFrom') value' = .ok (.ok (), storage₂) ∧
      store debug storage₁ (q.field into' tryFrom') value' = .ok (.ok (), storage₁₂) ∧
      store debug storage₂ (p.field into tryFrom) value = .ok (.ok (), storage₁₂) ∧
      getAs debug storage₁ (q.field into' tryFrom') = getAs debug storage (q.field into' tryFrom') ∧
      getAs debug storage₂ (p.field into tryFrom) = getAs debug storage (p.field into tryFrom)

def OverflowKeeps : Prop :=
  ∀ {α : Type} (into : α → UInt8) (tryFrom : UInt8 → Option α) (value : α) {storage' : List UInt8},
    store debug storage (p.field into tryFrom) value = .ok (.error .overflow, storage') → storage' = storage

structure FieldsHold : Prop where
  stores : Accepted debug storage p → Stores debug storage p
  stores' : Accepted debug storage q → Stores debug storage q
  independent : Accepted debug storage p → Accepted debug storage q → p.Disjoint q → Independent debug storage p q
  overflow : OverflowKeeps debug storage p
  overflow' : OverflowKeeps debug storage q

/-- No sum that wraps passes for one inside the array: the only one that may is 2^64 itself, on an
array with so many bits. -/
def NoWrap : Prop :=
  debug = false → p.width ≤ bitsPerByte → 2 ^ 64 ≤ p.pos + p.width →
    (p.pos + p.width) % 2 ^ 64 ≤ (bitsPerByte * storage.length) % 2 ^ 64 →
    p.pos + p.width = 2 ^ 64 ∧ 2 ^ 64 ≤ bitsPerByte * storage.length

/-! ## One bit -/

theorem byteBit_getBit (b : UInt8) {i : Nat} (hi : i < 8) (k : Nat) :
    byteBit (getBit b i) k = (decide (k = 0) && byteBit b i) := by
  unfold getBit
  rw [byteBit_and, byteBit_shiftRight b hi, byteBit_one]
  by_cases hk : k = 0
  · simp [hk]
  · simp [hk]

/-- A bit of one byte is set to a bit of another one. -/
theorem byteBit_setBitTo (b repr : UInt8) {pos i k : Nat} (hpos : pos < 8) (hi : i < 8) (hk : k < 8) :
    byteBit (setBitTo b pos (getBit repr i)) k = if k = pos then byteBit repr i else byteBit b k := by
  unfold setBitTo
  rw [byteBit_or, byteBit_and, byteBit_not _ hk, byteBit_shiftLeft _ hpos hk, byteBit_shiftLeft _ hpos hk,
    byteBit_one, byteBit_getBit _ hi]
  rcases Nat.lt_trichotomy k pos with hlt | rfl | hgt
  · simp [Nat.not_le.mpr hlt, Nat.ne_of_lt hlt]
  · simp
  · simp [Nat.ne_of_gt hgt, Nat.sub_ne_zero_of_lt hgt]

variable {debug : Bool} {storage storage' : List UInt8} {p q : Place} {repr : UInt8} {pos i n : Nat}

theorem addUsize_eq {a b : Nat} (h : a + b < 2 ^ 64) : addUsize debug a b = .ok (a + b) := by
  rw [addUsize, if_neg fun hover => Nat.not_le.mpr h hover.2, Nat.mod_eq_of_lt h]

theorem addUsize_eq_ok {a b c : Nat} (h : addUsize debug a b = .ok c) :
    c = (a + b) % 2 ^ 64 ∧ (debug = true → a + b < 2 ^ 64) := by
  unfold addUsize at h
  split at h
  · cases h
  · rename_i hover
    exact ⟨(Except.ok.inj h).symm, fun hdebug => Nat.lt_of_not_le fun hle => hover ⟨hdebug, hle⟩⟩

theorem mulUsize_eq_ok {a b c : Nat} (h : mulUsize debug a b = .ok c) : c = (a * b) % 2 ^ 64 := by
  unfold mulUsize at h
  split at h
  · cases h
  · exact (Except.ok.inj h).symm

theorem writes_modify {idx : Nat} (hidx : idx < 8 * storage.length) (hi : i < 8) :
    Writes storage (storage.modify (idx / 8) fun b => setBitTo b (idx % 8) (getBit repr i)) idx 1
      fun _ => byteBit repr i := by
  have hbyte : idx / 8 < storage.length := by omega
  have hbit : idx % 8 < 8 := Nat.mod_lt _ (by decide)
  have heq := bitAt_modify hbyte fun b => setBitTo b (idx % 8) (getBit repr i)
  refine ⟨List.length_modify .., fun j hj => ?_, fun k hk => ?_⟩
  · obtain rfl : j = 0 := Nat.lt_one_iff.mp hj
    rw [Nat.add_zero, heq, if_pos rfl, byteBit_setBitTo _ _ hbit hi hbit, if_pos rfl]
  · rw [heq]
    split
    · rename_i hsame
      have hne : k % 8 ≠ idx % 8 := by omega
      rw [byteBit_setBitTo _ _ hbit hi (Nat.mod_lt _ (by decide)), if_neg hne, ← hsame]
      rfl
    · rfl

/-- A round of `store` writes one bit, where the index wraps to. -/
theorem storeBit_eq_ok (hi : i < 8) (h : storeBit debug repr pos storage i = .ok storage') :
    (pos + i) % 2 ^ 64 < 8 * storage.length ∧
      Writes storage storage' ((pos + i) % 2 ^ 64) 1 fun _ => byteBit repr i := by
  obtain ⟨idx, hidx, h⟩ := Panics.bind_eq_ok.mp h
  obtain ⟨rfl, -⟩ := addUsize_eq_ok hidx
  split at h
  · rename_i hbyte
    obtain rfl := Except.ok.inj h
    have hlt : (pos + i) % 2 ^ 64 < 8 * storage.length := by omega
    exact ⟨hlt, writes_modify hlt hi⟩
  · cases h

theorem storeBit_eq (debug : Bool) (repr : UInt8) (hfit : pos + i < 8 * storage.length) (hlt : pos + i < 2 ^ 64) :
    storeBit debug repr pos storage i =
      .ok (storage.modify ((pos + i) / 8) fun b => setBitTo b ((pos + i) % 8) (getBit repr i)) := by
  have hbyte : (pos + i) / 8 < storage.length := by omega
  rw [storeBit, addUsize_eq hlt]
  exact if_pos hbyte

theorem readBit_eq (debug : Bool) (acc : UInt8) (hfit : pos + i < 8 * storage.length) (hlt : pos + i < 2 ^ 64) :
    readBit debug storage pos acc i =
      .ok (setBitTo acc i (getBit (storage.getD ((pos + i) / 8) 0) ((pos + i) % 8))) := by
  have hbyte : (pos + i) / 8 < storage.length := by omega
  rw [readBit, addUsize_eq hlt]
  show (match storage[(pos + i) / 8]? with | some b => _ | none => _) = _
  rw [List.getElem?_eq_getElem hbyte, List.getD_eq_getElem _ _ hbyte]
  rfl

/-! ## The loops -/

/-- The rounds of `store` write the bits of the value one after the other. -/
theorem storeBits_ok (debug : Bool) (repr : UInt8) (hn : n ≤ 8) (hfit : pos + n ≤ 8 * storage.length)
    (hlt : pos + n ≤ 2 ^ 64) :
    ∃ storage', (List.range n).foldlM (storeBit debug repr pos) storage = .ok storage' ∧
      Writes storage storage' pos n (byteBit repr) := by
  induction n with
  | zero => exact ⟨storage, rfl, .zero ..⟩
  | succ n ih =>
    obtain ⟨storage₁, hrun, hwrites⟩ :=
      ih (Nat.le_of_succ_le hn) (Nat.le_of_succ_le hfit) (Nat.le_of_succ_le hlt)
    have hfit₁ : pos + n < 8 * storage₁.length := hwrites.length.symm ▸ hfit
    refine ⟨_, ?_, hwrites.succ (writes_modify hfit₁ hn)⟩
    rw [List.range_succ, List.foldlM_append, hrun]
    exact (bind_pure _).trans (storeBit_eq debug repr hfit₁ hlt)

/-- The last round of a loop that got through. -/
theorem storeBits_last (h : (List.range (n + 1)).foldlM (storeBit debug repr pos) storage = .ok storage') :
    ∃ storage₁, storeBit debug repr pos storage₁ n = .ok storage' := by
  rw [List.range_succ, List.foldlM_append] at h
  obtain ⟨storage₁, -, h⟩ := Panics.bind_eq_ok.mp h
  exact ⟨storage₁, (bind_pure _).symm.trans h⟩

/-- The byte `repr` has the bits of the array from `pos` on, and no others. -/
def Reads (storage : List UInt8) (pos n : Nat) (repr : UInt8) : Prop :=
  ∀ k < 8, byteBit repr k = (decide (k < n) && bitAt storage (pos + k))

theorem Reads.unique {repr' : UInt8} (h : Reads storage pos n repr) (h' : Reads storage pos n repr') :
    repr = repr' :=
  byte_ext fun k hk => (h k hk).trans (h' k hk).symm

/-- A round of `get_as` reads one more bit. -/
theorem Reads.succ {acc : UInt8} (hi : i < 8) (h : Reads storage pos i acc) :
    Reads storage pos (i + 1) (setBitTo acc i (getBit (storage.getD ((pos + i) / 8) 0) ((pos + i) % 8))) := by
  intro k hk
  rw [byteBit_setBitTo _ _ hi (Nat.mod_lt _ (by decide)) hk]
  by_cases heq : k = i
  · subst heq
    simp [bitAt]
  · have hiff : k < i + 1 ↔ k < i := by omega
    rw [if_neg heq, h k hk, decide_eq_decide.mpr hiff]

theorem readBits_ok (debug : Bool) (hn : n ≤ 8) (hfit : pos + n ≤ 8 * storage.length) (hlt : pos + n ≤ 2 ^ 64) :
    ∃ repr, (List.range n).foldlM (readBit debug storage pos) 0 = .ok repr ∧ Reads storage pos n repr := by
  induction n with
  | zero => exact ⟨0, rfl, fun k _ => by simp⟩
  | succ n ih =>
    obtain ⟨acc, hrun, hacc⟩ := ih (Nat.le_of_succ_le hn) (Nat.le_of_succ_le hfit) (Nat.le_of_succ_le hlt)
    refine ⟨_, ?_, hacc.succ hn⟩
    rw [List.range_succ, List.foldlM_append, hrun]
    exact (bind_pure _).trans (readBit_eq debug acc hfit hlt)

theorem reads_lowBits (h : Writes storage storage' pos n (byteBit repr)) :
    Reads storage' pos n (lowBits n repr) := by
  intro k hk
  rw [lowBits, byteBit_ofNat _ hk, Nat.testBit_mod_two_pow]
  by_cases hlt : k < n
  · rw [h.inside k hlt]
    rfl
  · simp [hlt]

/-! ## Fields inside the array -/

/-- The field lies inside the array, and its bits are counted by a `usize`. -/
structure Place.Fits (p : Place) (storage : List UInt8) : Prop where
  width : p.width ≤ 8
  inside : p.pos + p.width ≤ 8 * storage.length
  counted : p.pos + p.width ≤ 2 ^ 64

theorem accepted_inv (h : Accepted debug storage p) :
    p.width ≤ 8 ∧ (p.pos + p.width) % 2 ^ 64 ≤ (8 * storage.length) % 2 ^ 64 ∧
      (debug = true → p.pos + p.width < 2 ^ 64) := by
  unfold Accepted checkField at h
  split at h
  · cases h
  · rename_i hwidth
    obtain ⟨supportedBits, hsupported, h⟩ := Panics.bind_eq_ok.mp h
    obtain ⟨fieldEnd, hend, h⟩ := Panics.bind_eq_ok.mp h
    obtain rfl := mulUsize_eq_ok hsupported
    obtain ⟨rfl, hchecked⟩ := addUsize_eq_ok hend
    split at h
    · cases h
    · rename_i hle
      exact ⟨Nat.le_of_not_lt hwidth, Nat.le_of_not_lt hle, hchecked⟩

theorem accepted_of_wrapped (hwidth : p.width ≤ 8)
    (hle : (p.pos + p.width) % 2 ^ 64 ≤ (8 * storage.length) % 2 ^ 64) : Accepted false storage p := by
  have hwidth' : ¬bitsPerByte < (p.field id some).width := Nat.not_lt.mpr hwidth
  unfold Accepted checkField
  rw [if_neg hwidth']
  exact congrArg Except.ok (if_neg (Nat.not_lt.mpr hle))

theorem Accepted.of_length (h : Accepted debug storage p) (hlen : storage'.length = storage.length) :
    Accepted debug storage' p := by
  unfold Accepted checkField at h ⊢
  rwa [hlen]

theorem Place.Fits.of_length (h : p.Fits storage) (hlen : storage'.length = storage.length) : p.Fits storage' :=
  ⟨h.width, hlen ▸ h.inside, h.counted⟩

variable {into : α → UInt8} {tryFrom : UInt8 → Option α}

/-- A store is refused, or runs the loop. -/
theorem store_eq_ok {value : α} {result : Except Error Unit}
    (h : store debug storage (p.field into tryFrom) value = .ok (result, storage')) :
    (∃ e, result = .error e ∧ storage' = storage) ∨
      result = .ok () ∧ (List.range p.width).foldlM (storeBit debug (into value) p.pos) storage = .ok storage' := by
  obtain ⟨checked, -, h⟩ := Panics.bind_eq_ok.mp h
  cases checked with
  | error e =>
    obtain ⟨rfl, rfl⟩ := Prod.mk.inj (Except.ok.inj h)
    exact .inl ⟨e, rfl, rfl⟩
  | ok _ =>
    obtain ⟨storage₁, hrun, h⟩ := Panics.bind_eq_ok.mp h
    obtain ⟨rfl, rfl⟩ := Prod.mk.inj (Except.ok.inj h)
    exact .inr ⟨rfl, hrun⟩

/-- A store writes the low bits of the value at the place of the field. -/
theorem store_writes (into : α → UInt8) (tryFrom : UInt8 → Option α) (hacc : Accepted debug storage p)
    (hfit : p.Fits storage) (value : α) :
    ∃ storage', store debug storage (p.field into tryFrom) value = .ok (.ok (), storage') ∧
      Writes storage storage' p.pos p.width (byteBit (into value)) := by
  obtain ⟨storage', hrun, hwrites⟩ :=
    storeBits_ok debug (into value) hfit.width hfit.inside hfit.counted
  exact ⟨storage', Panics.bind_eq_ok.mpr ⟨.ok (), hacc, Panics.bind_eq_ok.mpr ⟨storage', hrun, rfl⟩⟩, hwrites⟩

/-- A read gives the bits there. -/
theorem getAs_bits (into : α → UInt8) (tryFrom : UInt8 → Option α) (hacc : Accepted debug storage p)
    (hfit : p.Fits storage) :
    ∃ repr, getAs debug storage (p.field into tryFrom) = .ok (convert (p.field into tryFrom) repr) ∧
      Reads storage p.pos p.width repr := by
  obtain ⟨repr, hrun, hreads⟩ := readBits_ok debug hfit.width hfit.inside hfit.counted
  exact ⟨repr, Panics.bind_eq_ok.mpr ⟨.ok (), hacc, Panics.bind_eq_ok.mpr ⟨repr, hrun, rfl⟩⟩, hreads⟩

theorem stores_of_fits (hacc : Accepted debug storage p) (hfit : p.Fits storage) : Stores debug storage p := by
  intro α into tryFrom value
  obtain ⟨storage', hstore, hwrites⟩ := store_writes into tryFrom hacc hfit value
  have hlen := hwrites.length
  obtain ⟨repr, hget, hreads⟩ :=
    getAs_bits into tryFrom (hacc.of_length hlen) (hfit.of_length hlen)
  obtain rfl := hreads.unique (reads_lowBits hwrites)
  exact ⟨storage', hstore, hget, hlen, hwrites.outside⟩

/-- A write beside a field is not seen by a read of it. -/
theorem Reads.of_writes (hd : p.Disjoint q) {bits : Nat → Bool}
    (h : Writes storage storage' p.pos p.width bits) (hr : Reads storage q.pos q.width repr) :
    Reads storage' q.pos q.width repr := by
  intro k hk
  rw [hr k hk]
  by_cases hlt : k < q.width
  · have hin : q.Contains (q.pos + k) := ⟨Nat.le_add_right _ _, Nat.add_lt_add_left hlt _⟩
    rw [h.outside _ fun hp => hd _ hp hin]
  · simp [hlt]

theorem Place.Disjoint.symm (h : p.Disjoint q) : q.Disjoint p := fun k hq hp => h k hp hq

theorem getAs_of_writes (hd : p.Disjoint q) (hacc : Accepted debug storage q) (hfit : q.Fits storage)
    {bits : Nat → Bool} (h : Writes storage storage' p.pos p.width bits) :
    getAs debug storage' (q.field into tryFrom) = getAs debug storage (q.field into tryFrom) := by
  obtain ⟨repr, hget, hreads⟩ := getAs_bits into tryFrom hacc hfit
  obtain ⟨repr', hget', hreads'⟩ :=
    getAs_bits into tryFrom (hacc.of_length h.length) (hfit.of_length h.length)
  obtain rfl := hreads'.unique (hreads.of_writes hd h)
  exact hget'.trans hget.symm

theorem independent_of_fits (hacc : Accepted debug storage p) (hfit : p.Fits storage)
    (hacc' : Accepted debug storage q) (hfit' : q.Fits storage) (hd : p.Disjoint q) :
    Independent debug storage p q := by
  intro α β into tryFrom into' tryFrom' value value'
  obtain ⟨storage₁, hstore₁, hw₁⟩ := store_writes into tryFrom hacc hfit value
  obtain ⟨storage₂, hstore₂, hw₂⟩ := store_writes into' tryFrom' hacc' hfit' value'
  obtain ⟨storage₁₂, hstore₁₂, hw₁₂⟩ := store_writes into' tryFrom'
    (hacc'.of_length hw₁.length) (hfit'.of_length hw₁.length) value'
  obtain ⟨storage₂₁, hstore₂₁, hw₂₁⟩ := store_writes into tryFrom
    (hacc.of_length hw₂.length) (hfit.of_length hw₂.length) value
  obtain rfl := hw₁.comm hd hw₁₂ hw₂ hw₂₁
  exact ⟨storage₁, storage₂, storage₁₂, hstore₁, hstore₂, hstore₁₂, hstore₂₁, getAs_of_writes hd hacc' hfit' hw₁,
    getAs_of_writes hd.symm hacc hfit hw₂⟩

/-- An overflow is found before the first bit is set. -/
theorem overflowKeeps (debug : Bool) (storage : List UInt8) (p : Place) : OverflowKeeps debug storage p := by
  intro α into tryFrom value storage' h
  rcases store_eq_ok h with ⟨_, -, rfl⟩ | ⟨hok, -⟩
  · rfl
  · cases hok

/-! ## Which fields are accepted -/

theorem fits_of_noWrap (hwrap : NoWrap debug storage p) (hacc : Accepted debug storage p) : p.Fits storage := by
  obtain ⟨hwidth, hle, hchecked⟩ := accepted_inv hacc
  have hmod : (8 * storage.length) % 2 ^ 64 ≤ 8 * storage.length := Nat.mod_le _ _
  by_cases hlt : p.pos + p.width < 2 ^ 64
  · rw [Nat.mod_eq_of_lt hlt] at hle
    exact ⟨hwidth, hle.trans hmod, Nat.le_of_lt hlt⟩
  · have hdebug : debug = false := Bool.eq_false_iff.mpr fun hdebug => hlt (hchecked hdebug)
    obtain ⟨heq, hbits⟩ := hwrap hdebug hwidth (Nat.le_of_not_lt hlt) hle
    exact ⟨hwidth, heq ▸ hbits, Nat.le_of_eq heq⟩

theorem byteBit_full : ∀ n < 8, byteBit 255 n = true := by decide

/-- A field that stores every value is inside the array: its last bit is set where the index wraps to,
and a bit there must be its own. -/
theorem fits_of_stores (hacc : Accepted debug storage p) (h : Stores debug storage p) : p.Fits storage := by
  obtain ⟨hwidth, hle, -⟩ := accepted_inv hacc
  have hmod : (8 * storage.length) % 2 ^ 64 ≤ 8 * storage.length := Nat.mod_le _ _
  have hpos := p.pos_lt
  rcases Nat.eq_zero_or_eq_succ_pred p.width with hzero | hsucc
  · rw [hzero, Nat.add_zero, Nat.mod_eq_of_lt hpos] at hle
    exact ⟨hwidth, by omega, by omega⟩
  · generalize p.width.pred = n at hsucc
    have hn : n < 8 := by omega
    obtain ⟨last, hlast⟩ : ∃ last, last = (p.pos + n) % 2 ^ 64 := ⟨_, rfl⟩
    -- A value whose last bit is not what stands at `last`.
    obtain ⟨value, hvalue⟩ : ∃ value, byteBit value n = !bitAt storage last := by
      cases bitAt storage last with
      | false => exact ⟨255, byteBit_full n hn⟩
      | true => exact ⟨0, byteBit_zero n⟩
    obtain ⟨storage', hstore, -, hlen, hframe⟩ := h id some value
    rcases store_eq_ok hstore with ⟨e, he, -⟩ | ⟨-, hrun⟩
    · cases he
    · rw [hsucc] at hrun
      obtain ⟨storage₁, hbit⟩ := storeBits_last hrun
      obtain ⟨hlt, hwrite⟩ := storeBit_eq_ok hn hbit
      have hlen₁ := hwrite.length
      have hset : bitAt storage' ((p.pos + n) % 2 ^ 64) = byteBit value n := hwrite.inside 0 Nat.one_pos
      by_cases hcounted : p.pos + n < 2 ^ 64
      · rw [Nat.mod_eq_of_lt hcounted] at hlt
        exact ⟨hwidth, by omega, by omega⟩
      · have hout : ¬p.Contains last := fun hin => by
          have := hin.1
          omega
        have hkept := hframe last hout
        rw [hlast, hset, ← hlast, hvalue] at hkept
        exact absurd hkept (Bool.not_ne_self _)

/-- A field that stores every value where it is accepted has no sum that wraps. -/
theorem noWrap_of_stores (h : Accepted debug storage p → Stores debug storage p) : NoWrap debug storage p := by
  rintro rfl hwidth hge hle
  have hacc := accepted_of_wrapped hwidth hle
  have hfit := fits_of_stores hacc (h hacc)
  have heq : p.pos + p.width = 2 ^ 64 := Nat.le_antisymm hfit.counted hge
  exact ⟨heq, heq ▸ hfit.inside⟩

/-- Two fields do what they must exactly when no sum of theirs wraps and is accepted. -/
theorem fieldsHold_iff (debug : Bool) (storage : List UInt8) (p q : Place) :
    FieldsHold debug storage p q ↔ NoWrap debug storage p ∧ NoWrap debug storage q := by
  constructor
  · intro h
    exact ⟨noWrap_of_stores h.stores, noWrap_of_stores h.stores'⟩
  · rintro ⟨hp, hq⟩
    exact {
      stores := fun hacc => stores_of_fits hacc (fits_of_noWrap hp hacc)
      stores' := fun hacc => stores_of_fits hacc (fits_of_noWrap hq hacc)
      independent := fun hacc hacc' hd =>
        independent_of_fits hacc (fits_of_noWrap hp hacc) hacc' (fits_of_noWrap hq hacc') hd
      overflow := overflowKeeps debug storage p
      overflow' := overflowKeeps debug storage q }

/-- The last bit that a `usize` counts, and one more. -/
def Place.wrapping : Place := ⟨2 ^ 64 - 1, 2, by decide, by decide⟩

/-- An array of one byte accepts it, and a store of it panics. -/
theorem not_fieldsHold_wrapping : ¬FieldsHold false [0] .wrapping ⟨0, 2, by decide, by decide⟩ := by
  intro h
  obtain ⟨_, hstore, -⟩ := h.stores rfl id some 3
  have hpanic : store false [0] (Place.wrapping.field id some) 3 = .error "index out of bounds" := rfl
  rw [hpanic] at hstore
  cases hstore

/-! ## Without a bound on the numbers

Where the numbers of bits are in a `usize`, the operations do what those without
a bound do. -/

theorem checkField_eq {field : BitField α} (hbits : 8 * storage.length < 2 ^ 64)
    (hend : field.pos + field.width < 2 ^ 64) :
    checkField debug storage field = .ok (Bitfields.checkField storage field) := by
  unfold checkField Bitfields.checkField
  split
  · rfl
  · have hmul : mulUsize debug bitsPerByte storage.length = .ok (bitsPerByte * storage.length) := by
      rw [mulUsize, if_neg fun hover => Nat.not_le.mpr hbits hover.2]
      exact congrArg Except.ok (Nat.mod_eq_of_lt hbits)
    rw [hmul, addUsize_eq hend]
    rfl

theorem checkField_ok {field : BitField α} {u : Unit} (h : Bitfields.checkField storage field = .ok u) :
    field.width ≤ 8 ∧ field.pos + field.width ≤ 8 * storage.length := by
  unfold Bitfields.checkField at h
  split at h
  · cases h
  · rename_i hwidth
    split at h
    · cases h
    · rename_i hfit
      exact ⟨Nat.le_of_not_lt hwidth, Nat.le_of_not_lt hfit⟩

theorem storeBits_eq (debug : Bool) (repr : UInt8) (hn : n ≤ 8) (hfit : pos + n ≤ 8 * storage.length)
    (hlt : pos + n ≤ 2 ^ 64) :
    (List.range n).foldlM (storeBit debug repr pos) storage =
      .ok ((List.range n).foldl (fun storage i =>
        storage.modify ((pos + i) / 8) fun b => setBitTo b ((pos + i) % 8) (getBit repr i)) storage) := by
  induction n with
  | zero => rfl
  | succ n ih =>
    have hrun := ih (Nat.le_of_succ_le hn) (Nat.le_of_succ_le hfit) (Nat.le_of_succ_le hlt)
    obtain ⟨storage₁, hrun₁, hwrites⟩ :=
      storeBits_ok debug repr (Nat.le_of_succ_le hn) (Nat.le_of_succ_le hfit) (Nat.le_of_succ_le hlt)
    have heq := Except.ok.inj (hrun₁.symm.trans hrun)
    have hfit₁ : pos + n < 8 * storage₁.length := hwrites.length.symm ▸ hfit
    have hbit := storeBit_eq debug repr hfit₁ hlt
    rw [List.range_succ, List.foldlM_append, List.foldl_append, hrun₁, ← heq]
    exact Panics.bind_eq_ok.mpr ⟨storage₁, rfl, Panics.bind_eq_ok.mpr ⟨_, hbit, rfl⟩⟩

theorem readBits_eq (debug : Bool) (acc : UInt8) (hfit : pos + n ≤ 8 * storage.length) (hlt : pos + n ≤ 2 ^ 64) :
    (List.range n).foldlM (readBit debug storage pos) acc =
      .ok ((List.range n).foldl (fun repr i =>
        setBitTo repr i (getBit (storage.getD ((pos + i) / 8) 0) ((pos + i) % 8))) acc) := by
  induction n with
  | zero => rfl
  | succ n ih =>
    rw [List.range_succ, List.foldlM_append, List.foldl_append, ih (Nat.le_of_succ_le hfit) (Nat.le_of_succ_le hlt)]
    exact Panics.bind_eq_ok.mpr ⟨_, rfl, Panics.bind_eq_ok.mpr ⟨_, readBit_eq debug _ hfit hlt, rfl⟩⟩

theorem store_eq_store {field : BitField α} (hbits : 8 * storage.length < 2 ^ 64)
    (hend : field.pos + field.width < 2 ^ 64) (value : α) :
    store debug storage field value = .ok (match Bitfields.store storage field value with
      | .ok storage' => (.ok (), storage')
      | .error e => (.error e, storage)) := by
  unfold store Bitfields.store
  rw [checkField_eq hbits hend]
  cases hcheck : Bitfields.checkField storage field with
  | error e => rfl
  | ok u =>
    obtain ⟨hwidth, hfit⟩ := checkField_ok hcheck
    have hrun := storeBits_eq debug (field.into value) hwidth hfit (Nat.le_of_lt hend)
    exact Panics.bind_eq_ok.mpr ⟨.ok (), rfl, Panics.bind_eq_ok.mpr ⟨_, hrun, rfl⟩⟩

theorem getAs_eq_getAs {field : BitField α} (hbits : 8 * storage.length < 2 ^ 64)
    (hend : field.pos + field.width < 2 ^ 64) :
    getAs debug storage field = .ok (Bitfields.getAs storage field) := by
  unfold getAs Bitfields.getAs
  rw [checkField_eq hbits hend]
  cases hcheck : Bitfields.checkField storage field with
  | error e => rfl
  | ok u =>
    obtain ⟨-, hfit⟩ := checkField_ok hcheck
    have hrun := readBits_eq debug 0 hfit (Nat.le_of_lt hend)
    refine Panics.bind_eq_ok.mpr ⟨.ok (), rfl, Panics.bind_eq_ok.mpr ⟨_, hrun, ?_⟩⟩
    unfold convert
    rfl

end Kompact.BitFieldExt
