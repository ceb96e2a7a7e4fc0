import Kompact.Dispatch.Lookup
import Kompact.Serialisation.Deserialise

/-!
# Reading any bytes

What `ActorPath.deserialise` and `deserialiseChunkLease` do on bytes that no
one vouches for. `robust_iff` says for which of them they return without a
panic, and with paths that can be looked up.

They do not for all. Only some of the reads are checked (the header, the port,
the length of a name and the serialisation id are not), and a name is taken as
it is: it may not be UTF-8, and may have empty segments or separators in it.
-/

namespace Kompact

/-! ## What the bytes hold -/

/-- The length of the name, as the bytes behind the header of a named path say. -/
def nameLen (rest : List UInt8) : Nat := ofBE ((rest.drop 6).take 2)

/-- Bytes that are refused: the header is not accepted, or one of the parts is
too short whose length is checked. -/
inductive PathRefused : List UInt8 → Prop
  | header {b : UInt8} (rest : List UInt8) {e : SerError} (h : SystemPathHeader.tryFrom b = .error e) :
    PathRefused (b :: rest)
  | address {b : UInt8} {rest : List UInt8} (h : rest.length < 4) : PathRefused (b :: rest)
  | uuid {b : UInt8} {rest : List UInt8} {header : SystemPathHeader} (h : SystemPathHeader.tryFrom b = .ok header)
    (ht : header.pathType = .unique) (h6 : 6 ≤ rest.length) (h22 : rest.length < 22) : PathRefused (b :: rest)
  | name {b : UInt8} {rest : List UInt8} {header : SystemPathHeader} (h : SystemPathHeader.tryFrom b = .ok header)
    (ht : header.pathType = .named) (h8 : 8 ≤ rest.length) (hn : rest.length < 8 + nameLen rest) :
    PathRefused (b :: rest)

/-- Bytes that start with a whole path, the name of it if it has one, and what is
left. -/
inductive PathWhole : List UInt8 → Option Utf8 → List UInt8 → Prop
  | unique {b : UInt8} {rest : List UInt8} {header : SystemPathHeader} (h : SystemPathHeader.tryFrom b = .ok header)
    (ht : header.pathType = .unique) (h22 : 22 ≤ rest.length) : PathWhole (b :: rest) none (rest.drop 22)
  | named {b : UInt8} {rest : List UInt8} {header : SystemPathHeader} (h : SystemPathHeader.tryFrom b = .ok header)
    (ht : header.pathType = .named) (hn : 8 + nameLen rest ≤ rest.length) :
    PathWhole (b :: rest) (some ((rest.drop 8).take (nameLen rest))) (rest.drop (8 + nameLen rest))

theorem PathRefused.not_whole {bs rest : List UInt8} {name : Option Utf8} (hr : PathRefused bs) :
    ¬ PathWhole bs name rest := by
  intro hw
  cases hw with
  | unique h ht h22 =>
    cases hr with
    | header _ he => rw [h] at he; cases he
    | address h4 => omega
    | uuid h' ht' h6 h22' => omega
    | name h' ht' h8 hn =>
      obtain rfl := Except.ok.inj (h.symm.trans h')
      rw [ht] at ht'
      cases ht'
  | named h ht hn =>
    cases hr with
    | header _ he => rw [h] at he; cases he
    | address h4 => omega
    | uuid h' ht' h6 h22 =>
      obtain rfl := Except.ok.inj (h.symm.trans h')
      rw [ht] at ht'
      cases ht'
    | name h' ht' h8 hn' => omega

theorem PathWhole.unique_eq {bs rest rest' : List UInt8} {name name' : Option Utf8} (h : PathWhole bs name rest)
    (h' : PathWhole bs name' rest') : name = name' ∧ rest = rest' := by
  cases h with
  | unique h ht _ =>
    cases h' with
    | unique _ _ _ => exact ⟨rfl, rfl⟩
    | named h' ht' _ =>
      obtain rfl := Except.ok.inj (h.symm.trans h')
      rw [ht] at ht'
      cases ht'
  | named h ht _ =>
    cases h' with
    | named _ _ _ => exact ⟨rfl, rfl⟩
    | unique h' ht' _ =>
      obtain rfl := Except.ok.inj (h.symm.trans h')
      rw [ht] at ht'
      cases ht'

/-! ## Paths that can be used -/

/-- The bytes are the encoding of a string. -/
def Utf8.Valid (s : Utf8) : Prop := s.toByteArray.IsValidUTF8

def ActorPath.segments : ActorPath → Option (List Utf8)
  | .unique _ _ => none
  | .named _ path => some path

/-- The segments are strings, and can be looked up. -/
def ValidSegments (segments : List Utf8) : Prop := LookupPath segments ∧ ∀ segment ∈ segments, Utf8.Valid segment

/-- No store panics on the path. -/
def LookupSafe (debug : Bool) (path : ActorPath) : Prop :=
  ∀ (R P : Type) (implicitRoutes : Bool) (store : ActorStore R P),
    ∃ found, store.getByActorPath debug implicitRoutes path = .ok found

/-- There is no panic, and the paths of the result are valid and looked up without
one. -/
def Robust {α : Type} (debug : Bool) (paths : α → List ActorPath) (run : Panics (Except SerError α)) : Prop :=
  ∃ r, run = .ok r ∧ ∀ x, r = .ok x → ∀ path ∈ paths x,
    (∀ segments ∈ path.segments, ValidSegments segments) ∧ LookupSafe debug path

theorem lookupSafe {debug : Bool} {path : ActorPath} (h : ∀ segments ∈ path.segments, LookupPath segments) :
    LookupSafe debug path := by
  intro R P implicitRoutes store
  cases path with
  | unique system id => exact ⟨_, rfl⟩
  | named system path => exact store.getByNamedPath_ok debug implicitRoutes (h path rfl)

/-- The name, if there is one, splits into valid segments. -/
def ValidName (name : Option Utf8) : Prop := ∀ n ∈ name, ValidSegments (n.splitOn slash)

/-- The name, if there is one, can be looked up. -/
def LookupName (name : Option Utf8) : Prop := ∀ n ∈ name, LookupPath (n.splitOn slash)

theorem ValidName.lookup {name : Option Utf8} (h : ValidName name) : LookupName name := fun n hn => (h n hn).1

/-- The bytes from which a path is read without a panic, and valid. -/
def PathSound (bs : List UInt8) : Prop :=
  PathRefused bs ∨ ∃ name rest, PathWhole bs name rest ∧ ValidName name

/-- What has to hold of the bytes behind the first path of a message, and of its
name: they are refused, or hold a second path and the serialisation id. -/
def RestSound (debug : Bool) (name : Option Utf8) (rest : List UInt8) : Prop :=
  PathRefused rest ∧ (debug = true → LookupName name) ∨
    ∃ name' rest', PathWhole rest name' rest' ∧ 8 ≤ rest'.length ∧ ValidName name ∧ ValidName name'

/-- The bytes from which a message is read without a panic, and with valid paths. -/
def MessageSound (debug : Bool) (bs : List UInt8) : Prop :=
  PathRefused bs ∨ ∃ name rest, PathWhole bs name rest ∧ RestSound debug name rest

/-! ## What is read from them -/

/-- How a path is read from bytes: it is refused; it is returned; it is whole, but
the assertion on it fails; or there is a read past the end. -/
inductive PathOutcome (debug : Bool) (bs : List UInt8) : Panics (Except SerError (ActorPath × List UInt8)) → Prop
  | refused (e : SerError) (h : PathRefused bs) : PathOutcome debug bs (.ok (.error e))
  | returned {path : ActorPath} {name : Option Utf8} {rest : List UInt8} (h : PathWhole bs name rest)
    (hs : path.segments = name.map fun n => n.splitOn slash) (hc : debug = true → LookupName name) :
    PathOutcome debug bs (.ok (.ok (path, rest)))
  | illegal {name : Option Utf8} {rest : List UInt8} (e : String) (h : PathWhole bs name rest) (hd : debug = true)
    (hn : ¬ LookupName name) : PathOutcome debug bs (.error e)
  | short (e : String) (hr : ¬ PathRefused bs) (hw : ∀ name rest, ¬ PathWhole bs name rest) :
    PathOutcome debug bs (.error e)

theorem readActorPath_outcome (debug : Bool) (bs : List UInt8) :
    PathOutcome debug bs (readActorPath debug Buf.bytes bs) := by
  rw [readActorPath_bytes]
  cases bs with
  | nil => exact .short _ (fun h => by cases h) (fun _ _ h => by cases h)
  | cons b rest =>
    rw [deserialise_cons]
    cases hh : SystemPathHeader.tryFrom b with
    | error e => exact .refused e (.header rest hh)
    | ok header =>
      simp only
      by_cases h4 : rest.length < 4
      · rw [if_pos h4]
        exact .refused _ (.address h4)
      by_cases h6 : rest.length < 6
      · rw [if_neg h4, if_pos h6]
        refine .short _ (fun hr => ?_) (fun name rest' hw => ?_)
        · cases hr with
          | header _ he => rw [hh] at he; cases he
          | address h4' => omega
          | uuid h' ht' h6' h22 => omega
          | name h' ht' h8 hn => omega
        · cases hw <;> omega
      rw [if_neg h4, if_neg h6]
      cases ht : header.pathType with
      | unique =>
        simp only
        by_cases h22 : rest.length < 22
        · rw [if_pos h22]
          exact .refused _ (.uuid hh ht (by omega) h22)
        · rw [if_neg h22]
          exact .returned (.unique hh ht (by omega)) rfl (fun _ n hn => by cases hn)
      | named =>
        simp only
        by_cases h8 : rest.length < 8
        · rw [if_pos h8]
          refine .short _ (fun hr => ?_) (fun name rest' hw => ?_)
          · cases hr with
            | header _ he => rw [hh] at he; cases he
            | address h4' => omega
            | uuid h' ht' h6' h22 =>
              obtain rfl := Except.ok.inj (hh.symm.trans h')
              rw [ht] at ht'
              cases ht'
            | name h' ht' h8' hn => omega
          · cases hw with
            | unique h' ht' _ => omega
            | named h' ht' hn => omega
        rw [if_neg h8]
        by_cases hn : rest.length < 8 + nameLen rest
        · rw [if_pos (show rest.length < 8 + ofBE ((rest.drop 6).take 2) from hn)]
          exact .refused _ (.name hh ht (by omega) hn)
        · rw [if_neg (show ¬ rest.length < 8 + ofBE ((rest.drop 6).take 2) from hn)]
          have hwhole : PathWhole (b :: rest) _ _ := .named hh ht (by omega)
          simp only [Except.bind, checkPath, makeNamed]
          by_cases hbad : debug = true ∧ ¬ LookupPath (((rest.drop 8).take (nameLen rest)).splitOn slash)
          · rw [nameLen] at hbad
            rw [if_pos hbad]
            exact .illegal _ hwhole hbad.1 fun hl => hbad.2 (hl _ rfl)
          · rw [nameLen] at hbad
            rw [if_neg hbad]
            refine .returned hwhole rfl fun hd n hn => ?_
            obtain rfl := Option.some.inj hn
            exact Decidable.of_not_not fun hl => hbad ⟨hd, hl⟩

/-- The valid segments of a path that was read. -/
theorem validSegments_iff {path : ActorPath} {name : Option Utf8}
    (hs : path.segments = name.map fun n => n.splitOn slash) :
    (∀ segments ∈ path.segments, ValidSegments segments) ↔ ValidName name := by
  rw [hs]
  cases name with
  | none =>
    constructor
    · intro _ n hn
      cases hn
    · intro _ n hn
      cases hn
  | some name =>
    constructor
    · intro h n hn
      obtain rfl := Option.some.inj hn
      exact h _ rfl
    · intro h segments hseg
      obtain rfl := Option.some.inj hseg
      exact h name rfl

theorem not_robust_error {α : Type} {debug : Bool} {paths : α → List ActorPath} (e : String) :
    ¬ Robust debug paths (.error e) := by
  rintro ⟨r, h, -⟩
  cases h

theorem robust_refused {α : Type} {debug : Bool} {paths : α → List ActorPath} (e : SerError) :
    Robust debug paths (.ok (.error e)) :=
  ⟨_, rfl, fun _ h => by cases h⟩

/-- A result is robust if its paths are valid. -/
theorem robust_ok {α : Type} {debug : Bool} {paths : α → List ActorPath} {x : α} :
    Robust debug paths (.ok (.ok x)) ↔
      ∀ path ∈ paths x, ∀ segments ∈ path.segments, ValidSegments segments := by
  constructor
  · rintro ⟨r, h, hx⟩ path hp
    obtain rfl := Except.ok.inj h
    exact (hx x rfl path hp).1
  · intro h
    refine ⟨_, rfl, fun y hy path hp => ?_⟩
    obtain rfl := Except.ok.inj hy
    exact ⟨h path hp, lookupSafe fun segments hs => (h path hp segments hs).1⟩

/-- Related runs are robust alike. -/
theorem robust_congr {α α' : Type} {debug : Bool} {paths : α → List ActorPath} {paths' : α' → List ActorPath}
    {R : α → α' → Prop} {run : Panics (Except SerError α)} {run' : Panics (Except SerError α')}
    (h : ExceptRel (ExceptRel R) run run') (hp : ∀ x y, R x y → paths x = paths' y) :
    Robust debug paths run ↔ Robust debug paths' run' := by
  cases h with
  | error e => exact iff_of_false (not_robust_error e) (not_robust_error e)
  | ok h =>
    cases h with
    | error e => exact iff_of_true (robust_refused e) (robust_refused e)
    | ok h => rw [robust_ok, robust_ok, hp _ _ h]

theorem robust_readActorPath (debug : Bool) (bs : List UInt8) :
    Robust debug (fun x => [x.1]) (readActorPath debug Buf.bytes bs) ↔ PathSound bs := by
  have hout := readActorPath_outcome debug bs
  cases hrun : readActorPath debug Buf.bytes bs with
  | error e =>
    rw [hrun] at hout
    refine iff_of_false (not_robust_error e) ?_
    cases hout with
    | illegal _ h hd hn =>
      rintro (hr | ⟨name', rest', hw, hv⟩)
      · exact hr.not_whole h
      · obtain ⟨rfl, rfl⟩ := h.unique_eq hw
        exact hn hv.lookup
    | short _ hr hw =>
      rintro (hr' | ⟨name', rest', hw', -⟩)
      · exact hr hr'
      · exact hw _ _ hw'
  | ok r =>
    rw [hrun] at hout
    cases hout with
    | refused e h => exact iff_of_true (robust_refused e) (.inl h)
    | @returned path name rest h hs hc =>
      rw [robust_ok]
      simp only [List.mem_singleton, forall_eq, validSegments_iff hs]
      constructor
      · exact fun hv => .inr ⟨name, rest, h, hv⟩
      · rintro (hr | ⟨name', rest', hw, hv⟩)
        · exact absurd h hr.not_whole
        · obtain ⟨rfl, rfl⟩ := h.unique_eq hw
          exact hv

theorem messageSound_of_whole {debug : Bool} {bs rest : List UInt8} {name : Option Utf8} (h : PathWhole bs name rest) :
    MessageSound debug bs ↔ RestSound debug name rest := by
  constructor
  · rintro (hr | ⟨name', rest', hw, hs⟩)
    · exact absurd h hr.not_whole
    · obtain ⟨rfl, rfl⟩ := h.unique_eq hw
      exact hs
  · exact fun hs => .inr ⟨name, rest, h, hs⟩

theorem restSound_of_whole {debug : Bool} {rest rest' : List UInt8} {name name' : Option Utf8}
    (h : PathWhole rest name' rest') :
    RestSound debug name rest ↔ 8 ≤ rest'.length ∧ ValidName name ∧ ValidName name' := by
  constructor
  · rintro (⟨hr, -⟩ | ⟨name'', rest'', hw, hs⟩)
    · exact absurd h hr.not_whole
    · obtain ⟨rfl, rfl⟩ := h.unique_eq hw
      exact hs
  · exact fun hs => .inr ⟨name', rest', h, hs⟩

theorem robust_readEnvelope (debug : Bool) (bs : List UInt8) :
    Robust debug (fun x => [x.1.src, x.1.dst]) (readEnvelope debug Buf.bytes bs) ↔ MessageSound debug bs := by
  unfold readEnvelope
  have hout := readActorPath_outcome debug bs
  cases hrun : readActorPath debug Buf.bytes bs with
  | error e =>
    rw [hrun] at hout
    refine iff_of_false (not_robust_error e) ?_
    cases hout with
    | illegal _ h hd hn =>
      rw [messageSound_of_whole h]
      rintro (⟨-, hl⟩ | ⟨_, _, -, -, hv, -⟩)
      · exact hn (hl hd)
      · exact hn hv.lookup
    | short _ hr hw =>
      rintro (hr' | ⟨name', rest', hw', -⟩)
      · exact hr hr'
      · exact hw _ _ hw'
  | ok r =>
    rw [hrun] at hout
    cases hout with
    | refused e h => exact iff_of_true (robust_refused e) (.inl h)
    | @returned src name rest h hs hc =>
      rw [messageSound_of_whole h]
      simp only [bind, Except.bind]
      have hout' := readActorPath_outcome debug rest
      cases hrun' : readActorPath debug Buf.bytes rest with
      | error e =>
        rw [hrun'] at hout'
        refine iff_of_false (not_robust_error e) ?_
        cases hout' with
        | illegal _ h' hd hn =>
          rw [restSound_of_whole h']
          exact fun hsound => hn hsound.2.2.lookup
        | short _ hr hw =>
          rintro (⟨hr', -⟩ | ⟨_, _, hw', -⟩)
          · exact hr hr'
          · exact hw _ _ hw'
      | ok r' =>
        rw [hrun'] at hout'
        cases hout' with
        | refused e h' => exact iff_of_true (robust_refused e) (.inl ⟨h', hc⟩)
        | @returned dst name' rest' h' hs' _ =>
          rw [restSound_of_whole h']
          simp only [show Buf.bytes.getUint rest' 8 = ByteBuf.getUint rest' 8 from rfl, getUint_bytes]
          by_cases h8 : rest'.length < 8
          · rw [if_pos h8]
            exact iff_of_false (not_robust_error _) (by omega)
          · rw [if_neg h8]
            refine robust_ok.trans ?_
            simp only [List.mem_cons, List.not_mem_nil, or_false, forall_eq_or_imp, forall_eq, validSegments_iff hs,
              validSegments_iff hs']
            exact ⟨fun hv => ⟨by omega, hv⟩, fun hv => hv.2⟩

/-- The bytes from which a message is read without a panic, whatever its paths are. -/
def MessageReadable (debug : Bool) (bs : List UInt8) : Prop :=
  PathRefused bs ∨ ∃ name rest, PathWhole bs name rest ∧ (debug = true → LookupName name) ∧
    (PathRefused rest ∨
      ∃ name' rest', PathWhole rest name' rest' ∧ (debug = true → LookupName name') ∧ 8 ≤ rest'.length)

/-- A path is read, unless the bytes are refused, if they hold a whole one. -/
theorem readActorPath_whole {debug : Bool} {bs rest : List UInt8} {name : Option Utf8} (h : PathWhole bs name rest)
    (hl : debug = true → LookupName name) : ∃ path, readActorPath debug Buf.bytes bs = .ok (.ok (path, rest)) := by
  have hout := readActorPath_outcome debug bs
  generalize readActorPath debug Buf.bytes bs = run at hout
  cases hout with
  | refused e hr => exact absurd h hr.not_whole
  | returned h' hs hc =>
    obtain ⟨-, rfl⟩ := h.unique_eq h'
    exact ⟨_, rfl⟩
  | illegal e h' hd hn =>
    obtain ⟨rfl, -⟩ := h.unique_eq h'
    exact absurd (hl hd) hn
  | short e hr hw => exact absurd h (hw _ _)

theorem readActorPath_refused (debug : Bool) {bs : List UInt8} (h : PathRefused bs) :
    ∃ e, readActorPath debug Buf.bytes bs = .ok (.error e) := by
  have hout := readActorPath_outcome debug bs
  generalize readActorPath debug Buf.bytes bs = run at hout
  cases hout with
  | refused e _ => exact ⟨e, rfl⟩
  | returned h' _ _ => exact absurd h' h.not_whole
  | illegal e h' _ _ => exact absurd h' h.not_whole
  | short e hr _ => exact absurd h hr

/-- A message is read, or refused, from these bytes and no others. -/
theorem readEnvelope_ok_iff (debug : Bool) (bs : List UInt8) :
    (∃ r, readEnvelope debug Buf.bytes bs = .ok r) ↔ MessageReadable debug bs := by
  constructor
  · rintro ⟨r, hr⟩
    unfold readEnvelope at hr
    have hout := readActorPath_outcome debug bs
    generalize readActorPath debug Buf.bytes bs = run at hout hr
    cases hout with
    | illegal e _ _ _ => cases hr
    | short e _ _ => cases hr
    | refused e h => exact .inl h
    | @returned src name rest h _ hc =>
      refine .inr ⟨name, rest, h, hc, ?_⟩
      simp only [bind, Except.bind] at hr
      have hout' := readActorPath_outcome debug rest
      generalize readActorPath debug Buf.bytes rest = run' at hout' hr
      cases hout' with
      | illegal e _ _ _ => cases hr
      | short e _ _ => cases hr
      | refused e h' => exact .inl h'
      | @returned dst name' rest' h' _ hc' =>
        refine .inr ⟨name', rest', h', hc', Decidable.of_not_not fun h8 => ?_⟩
        simp only [show Buf.bytes.getUint rest' 8 = ByteBuf.getUint rest' 8 from rfl, getUint_bytes,
          if_pos (Nat.not_le.mp h8)] at hr
        cases hr
  · intro h
    unfold readEnvelope
    rcases h with hr | ⟨name, rest, hw, hl, hrest⟩
    · obtain ⟨e, he⟩ := readActorPath_refused debug hr
      exact ⟨_, by rw [he]; rfl⟩
    obtain ⟨src, hsrc⟩ := readActorPath_whole hw hl
    rw [hsrc]
    simp only [bind, Except.bind]
    rcases hrest with hr | ⟨name', rest', hw', hl', h8⟩
    · obtain ⟨e, he⟩ := readActorPath_refused debug hr
      exact ⟨_, by rw [he]; rfl⟩
    obtain ⟨dst, hdst⟩ := readActorPath_whole hw' hl'
    simp only [hdst, show Buf.bytes.getUint rest' 8 = ByteBuf.getUint rest' 8 from rfl, getUint_bytes,
      if_neg (Nat.not_lt.mpr h8)]
    exact ⟨_, rfl⟩

/-- From which bytes a path and a message are read without a panic and with paths
that can be looked up: any buffer that shows the bytes gives the path, and any
lease the message. -/
theorem robust_iff (debug : Bool) (bs : List UInt8) :
    (∀ {β : Type} {B : Buf β} {view : β → List UInt8} {ok : β → Prop} {buf : β}, B.Shows view ok → ok buf →
      view buf = bs → (Robust debug (fun x => [x.1]) (readActorPath debug B buf) ↔ PathSound bs)) ∧
    ∀ {m : Mem} {lease : ChunkLease}, lease.WF → lease.readPointer ≤ lease.capacity → lease.unread m = bs →
      (Robust debug (fun msg => [msg.sender, msg.receiver]) (deserialiseChunkLease debug m lease) ↔
        MessageSound debug bs) := by
  constructor
  · intro β B view ok buf hshows hok hbs
    subst hbs
    rw [← robust_readActorPath]
    refine robust_congr (readActorPath_at debug hshows hok (hshows.at_start buf)) fun x y hxy => ?_
    rw [hxy.1]
  · intro m lease hwf hptr hbs
    subst hbs
    rw [← robust_readEnvelope]
    refine robust_congr (deserialiseChunkLease_at debug m hwf hptr) fun msg x hx => ?_
    obtain ⟨ref, rfl, -⟩ := hx
    rfl

/-- A message with one byte of payload, to an actor of the given name. -/
def sentTo (name : Utf8) : List UInt8 :=
  [129, 0, 0, 0, 1, 0, 80, 0, 1, 97] ++
    ([129, 0, 0, 0, 2, 0, 80, 0, .ofNat name.length] ++ name ++ [0, 0, 0, 0, 0, 0, 0, 42, 1])

/-- Memory that holds the message. -/
def sentMem (name : Utf8) : Mem := Mem.write (fun _ _ => 0) 0 0 (sentTo name)

def sentLease (name : Utf8) : ChunkLease := .new ⟨0, 0, (sentTo name).length⟩ 0

/-- A message from `a` to `b`. -/
theorem robust_iff_named :
    Robust false (fun x => [x.1]) (readActorPath false Buf.bytes (sentTo [98])) ∧
      Robust false (fun msg => [msg.sender, msg.receiver])
        (deserialiseChunkLease false (sentMem [98]) (sentLease [98])) := by
  have ha : ValidName (some [97]) := by
    rintro n ⟨⟩
    refine ⟨by decide +kernel, fun segment hs => ?_⟩
    rw [show ([97] : Utf8).splitOn slash = [[97]] by decide +kernel, List.mem_singleton] at hs
    exact hs ▸ ⟨['a'], rfl⟩
  have hb : ValidName (some [98]) := by
    rintro n ⟨⟩
    refine ⟨by decide +kernel, fun segment hs => ?_⟩
    rw [show ([98] : Utf8).splitOn slash = [[98]] by decide +kernel, List.mem_singleton] at hs
    exact hs ▸ ⟨['b'], rfl⟩
  have h₁ : PathWhole (sentTo [98]) (some [97]) ((sentTo [98]).drop 10) := .named rfl rfl (by decide +kernel)
  have h₂ : PathWhole ((sentTo [98]).drop 10) (some [98]) ((sentTo [98]).drop 20) := .named rfl rfl (by decide +kernel)
  obtain ⟨hpath, hmsg⟩ := robust_iff false (sentTo [98])
  refine ⟨(hpath Buf.shows_bytes trivial rfl).mpr (.inr ⟨_, _, h₁, ha⟩), ?_⟩
  refine (hmsg (ChunkLease.wf_new _ _) (Nat.zero_le _) (by decide +kernel)).mpr ?_
  exact .inr ⟨_, _, h₁, .inr ⟨_, _, h₂, by decide +kernel, ha, hb⟩⟩

/-- The empty byte string panics, and a message to an actor without a name is read
as one that panics when it is looked up. -/
theorem not_robust_nameless :
    (∀ debug, ¬ Robust debug (fun x => [x.1]) (readActorPath debug Buf.bytes [])) ∧
      ∃ msg, deserialiseChunkLease false (sentMem []) (sentLease []) = .ok (.ok msg) ∧
        msg.receiver = .named ⟨.tcp, .v4 2, 80⟩ [[]] ∧
        (ActorStore.mk (R := Unit) (P := Unit) ∅ .new none).getByActorPath false false msg.receiver =
          .error "Should not be empty" ∧
        ¬ Robust false (fun msg => [msg.sender, msg.receiver])
          (deserialiseChunkLease false (sentMem []) (sentLease [])) := by
  refine ⟨fun debug => not_robust_error _, _, rfl, rfl, rfl, ?_⟩
  rintro ⟨r, hr, h⟩
  obtain rfl := Except.ok.inj hr
  obtain ⟨found, hfound⟩ :=
    (h _ rfl (.named ⟨.tcp, .v4 2, 80⟩ [[]]) (.tail _ (.head _))).2 Unit Unit false ⟨∅, .new, none⟩
  cases hfound

end Kompact
