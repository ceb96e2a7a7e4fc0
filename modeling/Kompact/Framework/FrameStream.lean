import Mathlib.Data.List.Infix

/-!
# Incremental decoding of a stream of frames

A frame is a head of fixed length, which says how much of the stream the rest
of the frame needs, followed by its body (`FrameFormat`). A `Decoder` holds
the symbols it was fed and has not used, and a head it has already taken from
them. `poll` takes the next frame, when all of it has been fed.

`Synced` says that the decoder stands between the frames it returned and a
list `todo` of frames still to come, of whose encodings the symbols `later`
have not been fed yet. Feeding, looking for a head and polling keep it
(`Synced.feed`, `Synced.fetchHead`, `Synced.poll`), for every way the stream
is cut into pieces; `poll` returns the next frame as soon as its encoding has
been fed.
-/

namespace Kompact

variable {β H F ε : Type}

/-- Two cuts of the same list: the longer first part extends the shorter one. -/
theorem exists_of_append_eq {a b c d : List β} (h : a ++ b = c ++ d) (hl : c.length ≤ a.length) :
    ∃ r, a = c ++ r ∧ d = r ++ b := by
  rcases List.append_eq_append_iff.mp h with ⟨r, hc, hb⟩ | ⟨r, ha, hd⟩
  · have hr : r = [] := by
      have := congrArg List.length hc
      simp only [List.length_append] at this
      exact List.length_eq_zero_iff.mp (by omega)
    subst hr
    exact ⟨[], by simpa using hc.symm, by simpa using hb.symm⟩
  · exact ⟨r, ha, hd⟩

/-- What a decoder needs to know of the frames: the head's length, how it is
decoded, the number of symbols that must be there before the body is decoded,
and how the body is taken from the symbols after the head. -/
structure FrameFormat (β H F ε : Type) where
  headLen : Nat
  decodeHead : List β → Except ε H
  bodyLen : H → Nat
  decodeBody : H → List β → Except ε F × List β

/-- The result of asking for a frame. -/
inductive Poll (F ε : Type) where
  | frame (f : F)
  | noData
  | failed (e : ε)
  deriving DecidableEq, Repr

/-- A decoder: a head already taken from the stream, and the symbols after it. -/
structure Decoder (β H : Type) where
  pending : Option H
  buf : List β

namespace FrameFormat

variable (fmt : FrameFormat β H F ε)

/-- More of the stream. -/
def feed (d : Decoder β H) (bs : List β) : Decoder β H := { d with buf := d.buf ++ bs }

/-- Take a head from the stream, unless there is one already. A head that
does not decode is taken too. -/
def fetchHead (d : Decoder β H) : Except ε Unit × Decoder β H :=
  match d.pending with
  | some _ => (.ok (), d)
  | none =>
    if fmt.headLen ≤ d.buf.length then
      match fmt.decodeHead (d.buf.take fmt.headLen) with
      | .ok h => (.ok (), ⟨some h, d.buf.drop fmt.headLen⟩)
      | .error e => (.error e, ⟨none, d.buf.drop fmt.headLen⟩)
    else (.ok (), d)

/-- The head whose body is there, if any. -/
def ready (d : Decoder β H) : Option H := d.pending.filter fun h => fmt.bodyLen h ≤ d.buf.length

/-- Whether a whole frame is there. -/
def hasFrame (d : Decoder β H) : Except ε Bool × Decoder β H :=
  match fmt.fetchHead d with
  | (.error e, d') => (.error e, d')
  | (.ok _, d') => (.ok (fmt.ready d').isSome, d')

/-- Take the next frame. -/
def poll (d : Decoder β H) : Poll F ε × Decoder β H :=
  match fmt.fetchHead d with
  | (.error e, d') => (.failed e, d')
  | (.ok _, d') =>
    match fmt.ready d' with
    | none => (.noData, d')
    | some h =>
      match fmt.decodeBody h d'.buf with
      | (.ok f, rest) => (.frame f, ⟨none, rest⟩)
      | (.error e, rest) => (.failed e, ⟨none, rest⟩)

/-- `hd` and `body` are the two parts of an encoding of `f`, with head `h`. -/
structure Parts (f : F) (h : H) (hd body : List β) : Prop where
  head_length : hd.length = fmt.headLen
  decodeHead : fmt.decodeHead hd = .ok h
  bodyLen : fmt.bodyLen h = body.length
  decodeBody : ∀ rest, fmt.decodeBody h (body ++ rest) = (.ok f, rest)

/-- `bs` is an encoding of `f`. -/
def Encodes (f : F) (bs : List β) : Prop := ∃ h hd body, bs = hd ++ body ∧ fmt.Parts f h hd body

variable (enc : F → List β)

/-- The decoder `d` stands before the frames `todo`, of whose encodings all
but the last symbols `later` have been fed: it has not yet taken the head of
the next frame, or it has. -/
inductive Synced (d : Decoder β H) (todo : List F) (later : List β) : Prop
  | between (hp : d.pending = none) (hs : d.buf ++ later = todo.flatMap enc)
  | within {f : F} {fs : List F} {h : H} {hd body : List β} (ht : todo = f :: fs)
      (he : enc f = hd ++ body) (parts : fmt.Parts f h hd body) (hp : d.pending = some h)
      (hs : d.buf ++ later = body ++ fs.flatMap enc)

variable {fmt enc}
variable {d : Decoder β H} {todo : List F} {later : List β}

/-- A new decoder stands before the whole stream. -/
theorem Synced.init (todo : List F) : Synced fmt enc ⟨none, []⟩ todo (todo.flatMap enc) :=
  .between rfl rfl

theorem Synced.feed {bs : List β} (h : Synced fmt enc d todo (bs ++ later)) :
    Synced fmt enc (feed d bs) todo later := by
  cases h with
  | between hp hs => exact .between hp (by simpa [FrameFormat.feed] using hs)
  | within ht he parts hp hs => exact .within ht he parts hp (by simpa [FrameFormat.feed] using hs)

/-- Looking for a head never fails, and finds one unless it has not been fed
completely. -/
theorem Synced.fetchHead (henc : ∀ f ∈ todo, fmt.Encodes f (enc f)) (h : Synced fmt enc d todo later)
    (hpos : 0 < fmt.headLen) :
    ∃ d', fmt.fetchHead d = (.ok (), d') ∧ Synced fmt enc d' todo later ∧
      (d'.pending = none → d' = d ∧ d.buf.length < fmt.headLen) := by
  cases h with
  | within ht he parts hp hs =>
    refine ⟨d, by simp only [FrameFormat.fetchHead, hp], .within ht he parts hp hs, fun hn => ?_⟩
    rw [hp] at hn; cases hn
  | between hp hs =>
    by_cases hl : fmt.headLen ≤ d.buf.length
    · obtain _ | ⟨f, fs⟩ := todo
      · have := congrArg List.length hs
        simp only [List.length_append, List.flatMap_nil, List.length_nil] at this
        omega
      obtain ⟨h, hd, body, he, parts⟩ := henc f (List.mem_cons_self ..)
      rw [List.flatMap_cons, he, List.append_assoc] at hs
      obtain ⟨rest, hbuf, hrest⟩ := exists_of_append_eq hs (by rw [parts.head_length]; exact hl)
      refine ⟨⟨some h, rest⟩, ?_, .within rfl he parts rfl hrest.symm, fun hn => by cases hn⟩
      simp only [FrameFormat.fetchHead, hp, hl, ite_true]
      rw [hbuf, ← parts.head_length, List.take_left, List.drop_left, parts.decodeHead]
    · refine ⟨d, by simp only [FrameFormat.fetchHead, hp, hl, ite_false], .between hp hs, fun _ => ?_⟩
      exact ⟨rfl, by omega⟩

theorem Synced.hasFrame (henc : ∀ f ∈ todo, fmt.Encodes f (enc f)) (h : Synced fmt enc d todo later)
    (hpos : 0 < fmt.headLen) :
    ∃ b d', fmt.hasFrame d = (.ok b, d') ∧ Synced fmt enc d' todo later := by
  obtain ⟨d', hf, hs, -⟩ := h.fetchHead henc hpos
  exact ⟨(fmt.ready d').isSome, d', by simp only [FrameFormat.hasFrame, hf], hs⟩

/-- The part of the encodings of `todo` after that of the first frame. -/
def afterFirst (enc : F → List β) (todo : List F) : List β := todo.tail.flatMap enc

/-- `poll` returns the next frame when its whole encoding has been fed, and
`noData` otherwise. -/
theorem Synced.poll (henc : ∀ f ∈ todo, fmt.Encodes f (enc f)) (h : Synced fmt enc d todo later)
    (hpos : 0 < fmt.headLen) :
    (∃ f fs d', todo = f :: fs ∧ later.length ≤ (afterFirst enc todo).length ∧
      fmt.poll d = (.frame f, d') ∧ Synced fmt enc d' fs later) ∨
    (∃ d', (todo ≠ [] → (afterFirst enc todo).length < later.length) ∧
      fmt.poll d = (.noData, d') ∧ Synced fmt enc d' todo later) := by
  obtain ⟨d', hf, hs, hshort⟩ := h.fetchHead henc hpos
  cases hs with
  | between hp hb =>
    -- no head: it has not been fed completely
    obtain ⟨rfl, hl⟩ := hshort hp
    refine .inr ⟨d', ?_, by simp only [FrameFormat.poll, hf, ready, hp, Option.filter_none], .between hp hb⟩
    intro hne
    obtain ⟨f, fs, rfl⟩ := List.exists_cons_of_ne_nil hne
    obtain ⟨h, hd, body, he, parts⟩ := henc f (List.mem_cons_self ..)
    have := congrArg List.length hb
    rw [List.flatMap_cons, he] at this
    simp only [List.length_append, parts.head_length] at this
    simp only [afterFirst, List.tail_cons]
    omega
  | @within f fs h hd body ht he parts hp hb =>
    have hlen := congrArg List.length hb
    simp only [List.length_append] at hlen
    have hafter : afterFirst enc todo = fs.flatMap enc := by rw [afterFirst, ht, List.tail_cons]
    rw [hafter]
    by_cases hl : fmt.bodyLen h ≤ d'.buf.length
    · have hready : fmt.ready d' = some h := by simp [ready, hp, hl]
      rw [parts.bodyLen] at hl
      obtain ⟨rest, hbuf, hrest⟩ := exists_of_append_eq hb hl
      refine .inl ⟨f, fs, ⟨none, rest⟩, ht, by omega, ?_, .between rfl hrest.symm⟩
      simp only [FrameFormat.poll, hf, hready, hbuf, parts.decodeBody]
    · have hready : fmt.ready d' = none := by simpa [ready, hp] using hl
      rw [parts.bodyLen] at hl
      exact .inr ⟨d', fun _ => by omega, by simp only [FrameFormat.poll, hf, hready],
        .within ht he parts hp hb⟩

end FrameFormat

end Kompact
