import Kompact.Framework.ByteBuf

/-!
# Readers of byte strings

A `Reader` takes a value from the front of a byte string and leaves the rest,
or fails, or panics. `Reads p bs a` says that `p` takes exactly `bs`, whatever
follows, and returns `a`: the law of a self-delimiting encoding. It holds of
readers in sequence if it does of each (`Reads.bind`).
-/

namespace Kompact

/-- Takes a value from a byte string. It can fail with an error, or panic. -/
def Reader (ε α : Type) : Type := List UInt8 → Except String (Except ε (α × List UInt8))

namespace Reader

variable {ε α γ : Type}

def pure (a : α) : Reader ε α := fun bs => .ok (.ok (a, bs))

def bind (p : Reader ε α) (f : α → Reader ε γ) : Reader ε γ := fun bs =>
  match p bs with
  | .error e => .error e
  | .ok (.error e) => .ok (.error e)
  | .ok (.ok (a, rest)) => f a rest

instance : Monad (Reader ε) where
  pure := pure
  bind := bind

def fail (e : ε) : Reader ε α := fun _ => .ok (.error e)

def panic (msg : String) : Reader ε α := fun _ => .error msg

/-- A read that cannot fail, only panic. -/
def lift (read : List UInt8 → Except String (α × List UInt8)) : Reader ε α := fun bs => (read bs).map .ok

/-- The next `w` bytes, as a big-endian number. -/
def getUint (w : Nat) : Reader ε Nat := lift fun bs => ByteBuf.getUint bs w

/-- The reader takes exactly `bs` and returns `a`. -/
def Reads (p : Reader ε α) (bs : List UInt8) (a : α) : Prop := ∀ rest, p (bs ++ rest) = .ok (.ok (a, rest))

theorem reads_pure (a : α) : Reads (Pure.pure a : Reader ε α) [] a := fun _ => rfl

theorem Reads.bind {p : Reader ε α} {f : α → Reader ε γ} {bs bs' : List UInt8} {a : α} {c : γ} (hp : Reads p bs a)
    (hf : Reads (f a) bs' c) : Reads (p >>= f) (bs ++ bs') c := by
  intro rest
  show Reader.bind p f _ = _
  rw [Reader.bind, List.append_assoc, hp]
  exact hf rest

theorem Reads.map {p : Reader ε α} {bs : List UInt8} {a : α} (hp : Reads p bs a) (f : α → γ) :
    Reads (f <$> p) bs (f a) := by
  intro rest
  show Reader.bind p (fun a => Reader.pure (f a)) _ = _
  rw [Reader.bind, hp]
  rfl

/-- A value that takes no bytes, after those that were read. -/
theorem Reads.bind_nil {p : Reader ε α} {f : α → Reader ε γ} {bs : List UInt8} {a : α} {c : γ} (hp : Reads p bs a)
    (hf : Reads (f a) [] c) : Reads (p >>= f) bs c := by
  have h := hp.bind hf
  rwa [List.append_nil] at h

theorem reads_getUint {w n : Nat} (hn : n < 256 ^ w) : Reads (getUint w : Reader ε Nat) (toBE w n) n := by
  intro rest
  rw [getUint, lift, ByteBuf.getUint_toBE hn]
  rfl

end Reader

end Kompact
