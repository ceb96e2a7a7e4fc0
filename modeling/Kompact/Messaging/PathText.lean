import Kompact.Messaging.LookupPaths
import Mathlib.Data.List.Chain

/-!
# Actor paths as text

A path is printed with three separators, `://` behind the protocol, and `/`
before each segment or `#` before the id, and parsed by splitting at them in
turn. How addresses, ports and ids are printed and parsed is left open
(`Texts`); what the code relies on there is `Texts.Lawful`.

An IPv6 address is printed without brackets, which a socket address needs to
be parsed. So the paths that come back are those with an IPv4 address
(`fromStr_display_iff`).
-/

namespace Kompact

/-- The texts of addresses, ports and ids. -/
structure Texts where
  ip : IpAddr → Utf8
  port : BitVec 16 → Utf8
  uuid : BitVec 128 → Utf8
  parseSocket : Utf8 → Option SocketAddr
  parseUuid : Utf8 → Option (BitVec 128)

namespace Ascii

def colon : UInt8 := 0x3A

def openBracket : UInt8 := 0x5B

def closeBracket : UInt8 := 0x5D

def dash : UInt8 := 0x2D

def dot : UInt8 := 0x2E

end Ascii

open Ascii

/-- What the code relies on. -/
structure Texts.Lawful (t : Texts) : Prop where
  /-- The socket address of an IPv4 address is `ip:port`. -/
  socket : ∀ ip port, t.parseSocket (t.ip (.v4 ip) ++ colon :: t.port port) = some (.v4 ip port)
  /-- A socket address of an IPv6 address is `[ip]:port`. -/
  bracketed : ∀ s ip port flowinfo scopeId,
    t.parseSocket s = some (.v6 ip port flowinfo scopeId) → s.head? = some openBracket
  /-- But the address itself is not in brackets. -/
  unbracketed : ∀ ip, (t.ip ip).head? ≠ some openBracket
  parseUuid : ∀ id, t.parseUuid (t.uuid id) = some id
  /-- No text has a separator of paths in it. -/
  ip_plain : ∀ ip, slash ∉ t.ip ip ∧ uniquePathSep ∉ t.ip ip
  port_plain : ∀ port, slash ∉ t.port port ∧ uniquePathSep ∉ t.port port
  uuid_plain : ∀ id, slash ∉ t.uuid id ∧ uniquePathSep ∉ t.uuid id

/-! ## Printing -/

/-- `local`, `tcp`, `udp` -/
def Transport.display : Transport → Utf8
  | .local => [0x6C, 0x6F, 0x63, 0x61, 0x6C]
  | .tcp => [0x74, 0x63, 0x70]
  | .udp => [0x75, 0x64, 0x70]

def SystemPath.display (t : Texts) (path : SystemPath) : Utf8 :=
  path.protocol.display ++ [colon, slash, slash] ++ t.ip path.address ++ [colon] ++ t.port path.port

def ActorPath.display (t : Texts) : ActorPath → Utf8
  | .named system path => system.display t ++ path.foldl (fun acc arg => acc ++ [slash] ++ arg) []
  | .unique system id => system.display t ++ [uniquePathSep] ++ t.uuid id

/-! ## Parsing -/

def Transport.fromStr (s : Utf8) : Except PathParseError Transport :=
  if s = Transport.local.display then .ok .local
  else if s = Transport.tcp.display then .ok .tcp
  else if s = Transport.udp.display then .ok .udp
  else .error .transport

/-- Split at each `://`. -/
def splitScheme : Utf8 → List Utf8
  | [] => [[]]
  | 0x3A :: 0x2F :: 0x2F :: rest => [] :: splitScheme rest
  | c :: rest =>
    match splitScheme rest with
    | part :: parts => (c :: part) :: parts
    | [] => [[c]]

/-- `SocketAddr::from_str` with the operator `?`. -/
def Texts.socketFromStr (t : Texts) (s : Utf8) : Except PathParseError SocketAddr :=
  match t.parseSocket s with
  | some socket => .ok socket
  | none => .error .addr

namespace UniquePath

def withSocket (protocol : Transport) (socket : SocketAddr) (id : BitVec 128) : ActorPath :=
  .unique ⟨protocol, socket.ip, socket.port⟩ id

def fromStr (t : Texts) (s : Utf8) : Except PathParseError ActorPath :=
  match splitScheme s with
  | [proto, rest] => do
    let proto ← Transport.fromStr proto
    match rest.splitOn uniquePathSep with
    | [addr, id] =>
      let socket ← t.socketFromStr addr
      match t.parseUuid id with
      | some uuid => return withSocket proto socket uuid
      | none => throw (.formText s)
    | _ => throw (.formText s)
  | _ => .error (.formText s)

end UniquePath

namespace NamedPath

/-- What its debug assertion checks was validated before. -/
def withSocket (protocol : Transport) (socket : SocketAddr) (path : List Utf8) : ActorPath :=
  .named ⟨protocol, socket.ip, socket.port⟩ path

def fromStr (t : Texts) (s : Utf8) : Except PathParseError ActorPath :=
  match splitScheme s with
  | [proto, rest] => do
    let proto ← Transport.fromStr proto
    match rest.splitOn slash with
    | addr :: path =>
      let socket ← t.socketFromStr addr
      validateLookupPath path
      return withSocket proto socket path
    | [] => throw (.formText s)
  | _ => .error (.formText s)

end NamedPath

def ActorPath.fromStr (t : Texts) (s : Utf8) : Except PathParseError ActorPath :=
  if uniquePathSep ∈ s then UniquePath.fromStr t s else NamedPath.fromStr t s

/-! ## Splitting what was printed -/

/-- No two slashes in a row. -/
def SingleSlashes (s : Utf8) : Prop := s.IsChain fun a b => ¬ (a = slash ∧ b = slash)

theorem singleSlashes_of_notMem {s : Utf8} (h : slash ∉ s) : SingleSlashes s := by
  induction s with
  | nil => exact .nil
  | cons c s ih =>
    cases s with
    | nil => exact .singleton c
    | cons d s =>
      refine .cons_cons (fun hcd => h ?_) (ih fun hm => h (List.mem_cons_of_mem c hm))
      rw [hcd.1]
      exact List.mem_cons_self

theorem splitScheme_single {s : Utf8} (h : SingleSlashes s) : splitScheme s = [s] := by
  fun_induction splitScheme s with
  | case1 => rfl
  | case2 rest ih =>
    obtain ⟨-, htail⟩ := List.isChain_cons_cons.mp h
    exact absurd ⟨rfl, rfl⟩ (List.isChain_cons_cons.mp htail).1
  | case3 c rest hno part parts hsplit ih =>
    have hrest := ih h.tail
    rw [hsplit] at hrest
    obtain ⟨rfl, rfl⟩ := List.cons.inj hrest
    rfl
  | case4 c rest hno hsplit ih =>
    have hrest := ih h.tail
    rw [hsplit] at hrest
    cases hrest

/-- The protocol is split from the rest. -/
theorem splitScheme_display (proto : Transport) {rest : Utf8} (h : SingleSlashes rest) :
    splitScheme (proto.display ++ [colon, slash, slash] ++ rest) = [proto.display, rest] := by
  have hrest := splitScheme_single h
  cases proto <;>
    simp [Transport.display, colon, slash, splitScheme, hrest]

theorem Transport.fromStr_display (proto : Transport) : Transport.fromStr proto.display = .ok proto := by
  cases proto <;> rfl

/-- The segments as they are printed. -/
def segmentsText (path : List Utf8) : Utf8 := path.flatMap fun segment => slash :: segment

theorem foldl_segments (path : List Utf8) (acc : Utf8) :
    path.foldl (fun acc arg => acc ++ [slash] ++ arg) acc = acc ++ segmentsText path := by
  induction path generalizing acc with
  | nil => simp [segmentsText]
  | cons segment path ih =>
    rw [List.foldl_cons, ih]
    simp [segmentsText]

theorem intercalate_segments (head : Utf8) (path : List Utf8) :
    [slash].intercalate (head :: path) = head ++ segmentsText path := by
  induction path generalizing head with
  | nil => simp [segmentsText]
  | cons segment path ih =>
    rw [List.intercalate_cons_cons, ih]
    simp [segmentsText]

theorem splitOn_segments {head : Utf8} {path : List Utf8} (hhead : slash ∉ head)
    (hpath : ∀ segment ∈ path, slash ∉ segment) :
    (head ++ segmentsText path).splitOn slash = head :: path := by
  rw [← intercalate_segments]
  exact List.splitOn_intercalate slash (List.forall_mem_cons.mpr ⟨hhead, hpath⟩) (List.cons_ne_nil _ _)

theorem singleSlashes_segments {path : List Utf8} (h : ∀ segment ∈ path, segment ≠ [] ∧ slash ∉ segment) :
    SingleSlashes (segmentsText path) := by
  induction path with
  | nil => exact .nil
  | cons segment path ih =>
    obtain ⟨⟨hne, hslash⟩, hpath⟩ := List.forall_mem_cons.mp h
    obtain ⟨c, cs, rfl⟩ := List.exists_cons_of_ne_nil hne
    have hsegment : SingleSlashes (slash :: c :: cs) :=
      .cons_cons (fun hc => hslash (hc.2 ▸ List.mem_cons_self)) (singleSlashes_of_notMem hslash)
    refine List.isChain_append.mpr ⟨hsegment, ih hpath, fun a ha b _ hab => hslash ?_⟩
    -- the last character of the segment is not a slash
    rw [List.getLast?_cons_cons] at ha
    exact hab.1 ▸ List.mem_of_getLast? ha

/-- A head without slashes may stand before the segments. -/
theorem singleSlashes_head {head : Utf8} {path : List Utf8} (hhead : slash ∉ head)
    (h : ∀ segment ∈ path, segment ≠ [] ∧ slash ∉ segment) : SingleSlashes (head ++ segmentsText path) := by
  refine List.isChain_append.mpr ⟨singleSlashes_of_notMem hhead, singleSlashes_segments h, fun a ha b _ hab => hhead ?_⟩
  exact hab.1 ▸ List.mem_of_getLast? ha

/-! ## The round trip -/

/-- A named path can be looked up. -/
def ActorPath.LookupNamed : ActorPath → Prop
  | .unique _ _ => True
  | .named _ path => validateLookupPath path = .ok ()

section

variable {t : Texts} (h : t.Lawful)

/-- The text of the address and the port. -/
def Texts.socketText (t : Texts) (system : SystemPath) : Utf8 := t.ip system.address ++ colon :: t.port system.port

theorem display_eq (t : Texts) (system : SystemPath) :
    system.display t = system.protocol.display ++ [colon, slash, slash] ++ t.socketText system := by
  simp [SystemPath.display, Texts.socketText]

include h

theorem socketText_plain (system : SystemPath) :
    slash ∉ t.socketText system ∧ uniquePathSep ∉ t.socketText system := by
  have hip := h.ip_plain system.address
  have hport := h.port_plain system.port
  have hcolon : slash ≠ colon ∧ uniquePathSep ≠ colon := by decide
  constructor
  · simp [Texts.socketText, hip.1, hport.1, hcolon.1]
  · simp [Texts.socketText, hip.2, hport.2, hcolon.2]

/-- The socket address is read as the system has it if it is an IPv4 one, and
else is none, or one of another kind. -/
theorem socketFromStr_text (system : SystemPath) :
    match system.address with
    | .v4 ip => t.socketFromStr (t.socketText system) = .ok (.v4 ip system.port)
    | .v6 _ => ∀ socket, t.socketFromStr (t.socketText system) = .ok socket → ∃ ip port, socket = .v4 ip port := by
  obtain ⟨proto, address, port⟩ := system
  cases address with
  | v4 ip => simp only [Texts.socketFromStr, Texts.socketText, h.socket]
  | v6 ip =>
    intro socket hsocket
    unfold Texts.socketFromStr at hsocket
    split at hsocket
    · rename_i found hfound
      obtain rfl := Except.ok.inj hsocket
      cases found with
      | v4 ip port => exact ⟨ip, port, rfl⟩
      | v6 ip' port' flowinfo scopeId =>
        have hhead := h.bracketed _ _ _ _ _ hfound
        have hno := h.unbracketed (.v6 ip)
        unfold Texts.socketText at hhead
        cases hip : t.ip (.v6 ip) with
        | nil =>
          rw [hip, List.nil_append, List.head?_cons] at hhead
          exact absurd (Option.some.inj hhead) (by decide)
        | cons c cs =>
          rw [hip] at hhead hno
          exact absurd hhead hno
    · cases hsocket

omit h in
theorem protocol_plain (proto : Transport) : uniquePathSep ∉ proto.display ++ [colon, slash, slash] := by
  cases proto <;> decide

/-- What a printed path is parsed to, up to its socket address. -/
theorem fromStr_named {system : SystemPath} {path : List Utf8} (hpath : validateLookupPath path = .ok ()) :
    ActorPath.fromStr t ((ActorPath.named system path).display t) =
      (t.socketFromStr (t.socketText system)).map fun socket =>
        NamedPath.withSocket system.protocol socket path := by
  have hclean := validateLookupPath_ok_iff.mp hpath
  have hplain := socketText_plain h system
  have hslash : ∀ segment ∈ path, slash ∉ segment := fun segment hm => (hclean.separators segment hm).1
  have hsegments : ∀ segment ∈ path, segment ≠ [] ∧ slash ∉ segment := fun segment hm =>
    ⟨hclean.nonempty segment hm, hslash segment hm⟩
  have htext : (ActorPath.named system path).display t =
      system.protocol.display ++ [colon, slash, slash] ++ (t.socketText system ++ segmentsText path) := by
    rw [ActorPath.display, foldl_segments, display_eq, List.nil_append, List.append_assoc]
  have hunique : uniquePathSep ∉ (ActorPath.named system path).display t := by
    intro hm
    rw [htext] at hm
    rcases List.mem_append.mp hm with hm | hm
    · exact protocol_plain system.protocol hm
    rcases List.mem_append.mp hm with hm | hm
    · exact hplain.2 hm
    · obtain ⟨segment, hsegment, hm⟩ := List.mem_flatMap.mp hm
      rcases List.mem_cons.mp hm with heq | hm
      · exact absurd heq (by decide)
      · exact (hclean.separators segment hsegment).2 hm
  rw [ActorPath.fromStr, if_neg hunique, NamedPath.fromStr, htext,
    splitScheme_display _ (singleSlashes_head hplain.1 hsegments)]
  simp only [Transport.fromStr_display, splitOn_segments hplain.1 hslash, hpath]
  cases t.socketFromStr (t.socketText system) <;> rfl

theorem fromStr_unique (system : SystemPath) (id : BitVec 128) :
    ActorPath.fromStr t ((ActorPath.unique system id).display t) =
      (t.socketFromStr (t.socketText system)).map fun socket =>
        UniquePath.withSocket system.protocol socket id := by
  have hplain := socketText_plain h system
  have huuid := h.uuid_plain id
  have htext : (ActorPath.unique system id).display t =
      system.protocol.display ++ [colon, slash, slash] ++ (t.socketText system ++ uniquePathSep :: t.uuid id) := by
    rw [ActorPath.display, display_eq]
    simp
  have hunique : uniquePathSep ∈ (ActorPath.unique system id).display t := by
    rw [htext]
    simp
  have hslash : slash ∉ t.socketText system ++ uniquePathSep :: t.uuid id := by
    have hne : slash ≠ uniquePathSep := by decide
    simp [hplain.1, huuid.1, hne]
  have hsplit : (t.socketText system ++ uniquePathSep :: t.uuid id).splitOn uniquePathSep =
      [t.socketText system, t.uuid id] := by
    have hjoin : [uniquePathSep].intercalate [t.socketText system, t.uuid id] =
        t.socketText system ++ uniquePathSep :: t.uuid id := by
      simp
    rw [← hjoin]
    refine List.splitOn_intercalate uniquePathSep (fun part hm => ?_) (List.cons_ne_nil _ _)
    rcases List.mem_pair.mp hm with rfl | rfl
    · exact hplain.2
    · exact huuid.2
  rw [ActorPath.fromStr, if_pos hunique, UniquePath.fromStr, htext,
    splitScheme_display _ (singleSlashes_of_notMem hslash)]
  simp only [Transport.fromStr_display, hsplit, h.parseUuid]
  cases t.socketFromStr (t.socketText system) <;> rfl

/-- A path that is printed comes back exactly if its address is an IPv4 one. -/
theorem roundTrip_iff {path : ActorPath} (hpath : path.LookupNamed) :
    ActorPath.fromStr t (path.display t) = .ok path ↔ path.system.address.isV4 = true := by
  have hsocket := socketFromStr_text h path.system
  have htext : ∃ make : SocketAddr → ActorPath,
      ActorPath.fromStr t (path.display t) = (t.socketFromStr (t.socketText path.system)).map make ∧
        (∀ socket, (make socket).system.address = socket.ip) ∧
        (∀ ip, path.system.address = .v4 ip → make (.v4 ip path.system.port) = path) := by
    cases path with
    | unique system id =>
      refine ⟨_, fromStr_unique h system id, fun _ => rfl, fun ip hip => ?_⟩
      obtain ⟨proto, address, port⟩ := system
      obtain rfl := hip
      rfl
    | named system path =>
      refine ⟨_, fromStr_named h hpath, fun _ => rfl, fun ip hip => ?_⟩
      obtain ⟨proto, address, port⟩ := system
      obtain rfl := hip
      rfl
  obtain ⟨make, htext, haddress, hmake⟩ := htext
  rw [htext]
  cases hip : path.system.address with
  | v4 ip =>
    rw [hip] at hsocket
    rw [hsocket]
    exact iff_of_true (congrArg Except.ok (hmake ip hip)) rfl
  | v6 ip =>
    rw [hip] at hsocket
    refine iff_of_false (fun hok => ?_) (by simp [IpAddr.isV4])
    cases hs : t.socketFromStr (t.socketText path.system) with
    | error e => rw [hs] at hok; cases hok
    | ok socket =>
      obtain ⟨ip', port', rfl⟩ := hsocket socket hs
      rw [hs] at hok
      have hsame := haddress (.v4 ip' port')
      rw [Except.ok.inj hok, hip] at hsame
      cases hsame

omit h

theorem UniquePath.of_fromStr {s : Utf8} {path : ActorPath} (hs : UniquePath.fromStr t s = .ok path) :
    ∃ proto socket id, path = UniquePath.withSocket proto socket id := by
  unfold UniquePath.fromStr at hs
  split at hs
  swap
  · cases hs
  rename_i proto rest hsplit
  obtain ⟨proto, -, hs⟩ := Panics.bind_eq_ok.mp hs
  split at hs
  swap
  · cases hs
  rename_i addr id hparts
  obtain ⟨socket, -, hs⟩ := Panics.bind_eq_ok.mp hs
  split at hs
  · exact ⟨_, _, _, (Except.ok.inj hs).symm⟩
  · cases hs

theorem NamedPath.of_fromStr {s : Utf8} {path : ActorPath} (hs : NamedPath.fromStr t s = .ok path) :
    ∃ proto socket segments, path = NamedPath.withSocket proto socket segments ∧
      validateLookupPath segments = .ok () := by
  unfold NamedPath.fromStr at hs
  split at hs
  swap
  · cases hs
  rename_i proto rest hsplit
  obtain ⟨proto, -, hs⟩ := Panics.bind_eq_ok.mp hs
  split at hs
  swap
  · cases hs
  rename_i addr segments hparts
  obtain ⟨socket, -, hs⟩ := Panics.bind_eq_ok.mp hs
  obtain ⟨_, hvalid, hs⟩ := Panics.bind_eq_ok.mp hs
  exact ⟨_, _, _, (Except.ok.inj hs).symm, hvalid⟩

/-- A named path that was parsed can be looked up. -/
theorem lookupNamed_of_fromStr {s : Utf8} {path : ActorPath} (hs : ActorPath.fromStr t s = .ok path) :
    path.LookupNamed := by
  unfold ActorPath.fromStr at hs
  split at hs
  · obtain ⟨proto, socket, id, rfl⟩ := UniquePath.of_fromStr hs
    trivial
  · obtain ⟨proto, socket, segments, rfl, hvalid⟩ := NamedPath.of_fromStr hs
    exact hvalid

end

/-! ## Texts as they are printed -/

namespace StdText

def hexDigit (d : Nat) : UInt8 := UInt8.ofNat (if d < 10 then 0x30 + d else 0x57 + d)

def ofHexDigit (c : UInt8) : Option Nat :=
  if 0x30 ≤ c ∧ c ≤ 0x39 then some (c.toNat - 0x30)
  else if 0x61 ≤ c ∧ c ≤ 0x66 then some (c.toNat - 0x57)
  else none

/-- Two digits a byte. -/
def hex (bytes : List UInt8) : Utf8 := bytes.flatMap fun b => [hexDigit (b.toNat / 16), hexDigit (b.toNat % 16)]

def ofHex : Utf8 → Option (List UInt8)
  | [] => some []
  | [_] => none
  | c :: d :: s => do return UInt8.ofNat (16 * (← ofHexDigit c) + (← ofHexDigit d)) :: (← ofHex s)

/-- Groups of digits. -/
def grouped (sep : UInt8) (groups : List (List UInt8)) : Utf8 := [sep].intercalate (groups.map hex)

def ofGrouped (sep : UInt8) (s : Utf8) : Option (List UInt8) := ofHex (s.filter (· ≠ sep))

/-- A number in base ten. -/
def decimal (n : Nat) : Utf8 := (Nat.toDigits 10 n).map fun c => UInt8.ofNat c.toNat

def ofDecimal (max : Nat) (s : Utf8) : Option Nat :=
  let digits := s.map fun b => Char.ofNat b.toNat
  let n := Nat.ofDigitChars 10 digits 0
  if s ≠ [] ∧ digits.all Char.isDigit ∧ n ≤ max then some n else none

theorem ofHexDigit_hexDigit : ∀ d < 16, ofHexDigit (hexDigit d) = some d := by decide

/-- A digit is none of the separators, nor the bracket. -/
theorem hexDigit_notMem : ∀ d < 16, hexDigit d ∉ [slash, uniquePathSep, colon, dash, openBracket] := by decide

theorem ofHex_hex (bytes : List UInt8) : ofHex (hex bytes) = some bytes := by
  induction bytes with
  | nil => rfl
  | cons b bytes ih =>
    have hb : b.toNat < 256 := b.toNat_lt
    have hhigh := ofHexDigit_hexDigit (b.toNat / 16) (by omega)
    have hlow := ofHexDigit_hexDigit (b.toNat % 16) (by omega)
    have hjoin : 16 * (b.toNat / 16) + b.toNat % 16 = b.toNat := by omega
    show ofHex (hexDigit (b.toNat / 16) :: hexDigit (b.toNat % 16) :: hex bytes) = _
    simp only [ofHex, hhigh, hlow, ih, bind, Option.bind, pure, hjoin, UInt8.ofNat_toNat]

theorem notMem_hex {c : UInt8} (hc : c ∈ [slash, uniquePathSep, colon, dash, openBracket]) (bytes : List UInt8) :
    c ∉ hex bytes := by
  intro hm
  obtain ⟨b, -, hm⟩ := List.mem_flatMap.mp hm
  have hb : b.toNat < 256 := b.toNat_lt
  rcases List.mem_pair.mp hm with rfl | rfl
  · exact hexDigit_notMem _ (by omega) hc
  · exact hexDigit_notMem _ (by omega) hc

theorem filter_grouped {sep : UInt8} (hsep : sep ∈ [slash, uniquePathSep, colon, dash, openBracket])
    (groups : List (List UInt8)) : (grouped sep groups).filter (· ≠ sep) = hex groups.flatten := by
  have hhex : ∀ bytes, (hex bytes).filter (· ≠ sep) = hex bytes := fun bytes =>
    List.filter_eq_self.mpr fun c hc => by
      have hne : c ≠ sep := fun heq => notMem_hex hsep bytes (heq ▸ hc)
      simpa using hne
  have happend : ∀ a b, hex (a ++ b) = hex a ++ hex b := fun a b => List.flatMap_append
  unfold grouped
  induction groups with
  | nil => rfl
  | cons group groups ih =>
    cases groups with
    | nil =>
      rw [List.map_cons, List.map_nil, List.intercalate_singleton, hhex, List.flatten_singleton]
    | cons next groups =>
      have hsep : [sep].filter (· ≠ sep) = [] := by simp
      rw [List.map_cons, List.map_cons, List.intercalate_cons_cons, List.filter_append, List.filter_append, hhex, hsep,
        ← List.map_cons, ih, List.append_nil]
      exact (happend group (next :: groups).flatten).symm

theorem ofGrouped_grouped {sep : UInt8} (hsep : sep ∈ [slash, uniquePathSep, colon, dash, openBracket])
    (groups : List (List UInt8)) : ofGrouped sep (grouped sep groups) = some groups.flatten := by
  rw [ofGrouped, filter_grouped hsep, ofHex_hex]

theorem notMem_intercalate {c sep : UInt8} (hne : c ≠ sep) {parts : List Utf8} (h : ∀ part ∈ parts, c ∉ part) :
    c ∉ [sep].intercalate parts := by
  induction parts with
  | nil => simp
  | cons part parts ih =>
    obtain ⟨hpart, hparts⟩ := List.forall_mem_cons.mp h
    cases parts with
    | nil => simpa using hpart
    | cons next parts =>
      rw [List.intercalate_cons_cons, List.mem_append, List.mem_append, List.mem_singleton]
      rintro ((hm | hm) | hm)
      · exact hpart hm
      · exact hne hm
      · exact ih hparts hm

theorem notMem_grouped {c sep : UInt8} (hc : c ∈ [slash, uniquePathSep, colon, dash, openBracket]) (hne : c ≠ sep)
    (groups : List (List UInt8)) : c ∉ grouped sep groups := by
  refine notMem_intercalate hne fun part hpart => ?_
  obtain ⟨group, -, rfl⟩ := List.mem_map.mp hpart
  exact notMem_hex hc group

theorem ofNat_toNat_digit {c : Char} (h : c.isDigit = true) : Char.ofNat (UInt8.ofNat c.toNat).toNat = c := by
  have hle : c.toNat ≤ 57 := by
    simp only [Char.isDigit, Bool.and_eq_true, decide_eq_true_eq] at h
    exact h.2
  rw [UInt8.toNat_ofNat', Nat.mod_eq_of_lt (by omega), Char.ofNat_toNat]

theorem map_digits (n : Nat) : (decimal n).map (fun b => Char.ofNat b.toNat) = Nat.toDigits 10 n := by
  rw [decimal, List.map_map]
  refine (List.map_congr_left fun c hc => ?_).trans (List.map_id _)
  exact ofNat_toNat_digit (Nat.isDigit_of_mem_toDigits (by decide) (by decide) hc)

theorem ofDecimal_decimal {max n : Nat} (h : n ≤ max) : ofDecimal max (decimal n) = some n := by
  have hdigits : (Nat.toDigits 10 n).all Char.isDigit = true :=
    List.all_eq_true.mpr fun c hc => Nat.isDigit_of_mem_toDigits (by decide) (by decide) hc
  have hne : decimal n ≠ [] := by simp [decimal, Nat.toDigits_ne_nil]
  simp only [ofDecimal, map_digits, hdigits, Nat.ofDigitChars_ten_toDigits, h, hne, ne_eq, not_false_eq_true, and_self,
    if_true]

theorem notMem_decimal {c : UInt8} (hc : c ∈ [slash, uniquePathSep, colon, dot, openBracket]) (n : Nat) :
    c ∉ decimal n := by
  intro hm
  obtain ⟨d, hd, rfl⟩ := List.mem_map.mp hm
  have hdigit : d.isDigit = true := Nat.isDigit_of_mem_toDigits (by decide) (by decide) hd
  have hback := ofNat_toNat_digit hdigit
  rw [← hback] at hdigit
  revert hc hdigit
  generalize UInt8.ofNat d.toNat = b
  intro hc hdigit
  simp only [List.mem_cons, List.not_mem_nil, or_false] at hc
  rcases hc with rfl | rfl | rfl | rfl | rfl <;> revert hdigit <;> decide

/-- Cut into groups of the given lengths. -/
def cut : List Nat → List UInt8 → List (List UInt8)
  | [], _ => []
  | n :: lengths, bytes => bytes.take n :: cut lengths (bytes.drop n)

theorem flatten_cut (lengths : List Nat) (bytes : List UInt8) : (cut lengths bytes).flatten = bytes.take lengths.sum := by
  induction lengths generalizing bytes with
  | nil => simp [cut]
  | cons n lengths ih => rw [cut, List.flatten_cons, ih, List.sum_cons, List.take_add]

/-- IPv6 addresses with four digits for each group, as none is zero or short. -/
def ip : IpAddr → Utf8
  | .v4 bits => [dot].intercalate ((toBE 4 bits.toNat).map fun b => decimal b.toNat)
  | .v6 bits => grouped colon (cut [2, 2, 2, 2, 2, 2, 2, 2] (toBE 16 bits.toNat))

def port (bits : BitVec 16) : Utf8 := decimal bits.toNat

def uuid (id : BitVec 128) : Utf8 := grouped dash (cut [4, 2, 2, 2, 6] (toBE 16 id.toNat))

def parseIpv4 (s : Utf8) : Option (BitVec 32) :=
  match (s.splitOn dot).map (ofDecimal 255) with
  | [some a, some b, some c, some d] => some (.ofNat 32 (ofBE ([a, b, c, d].map UInt8.ofNat)))
  | _ => none

/-- In brackets. -/
def parseIpv6 : Utf8 → Option (BitVec 128 × Utf8)
  | [] => none
  | c :: s =>
    if c = openBracket then
      match s.splitOn closeBracket with
      | [ip, rest] => (ofGrouped colon ip).map fun bytes => (.ofNat 128 (ofBE bytes), rest)
      | _ => none
    else none

def parseSocket (s : Utf8) : Option SocketAddr :=
  match s.splitOn colon with
  | [ip, port] => do return .v4 (← parseIpv4 ip) (.ofNat 16 (← ofDecimal 65535 port))
  | _ => do
    let (ip, rest) ← parseIpv6 s
    let port ← ofDecimal 65535 (rest.drop 1)
    return .v6 ip (.ofNat 16 port) 0 0

def parseUuid (s : Utf8) : Option (BitVec 128) := (ofGrouped dash s).map fun bytes => .ofNat 128 (ofBE bytes)

def texts : Texts where
  ip := ip
  port := port
  uuid := uuid
  parseSocket := parseSocket
  parseUuid := parseUuid

theorem parseIpv4_ip (bits : BitVec 32) : parseIpv4 (ip (.v4 bits)) = some bits := by
  have hdot : ∀ part ∈ (toBE 4 bits.toNat).map (fun b => decimal b.toNat), dot ∉ part := by
    intro part hpart
    obtain ⟨b, -, rfl⟩ := List.mem_map.mp hpart
    exact notMem_decimal (by decide) b.toNat
  have hsplit : (ip (.v4 bits)).splitOn dot = (toBE 4 bits.toNat).map fun b => decimal b.toNat :=
    List.splitOn_intercalate dot hdot (List.cons_ne_nil _ _)
  have hbyte : ∀ b : UInt8, ofDecimal 255 (decimal b.toNat) = some b.toNat := fun b =>
    ofDecimal_decimal (Nat.le_of_lt_succ b.toNat_lt)
  have hbytes : ((toBE 4 bits.toNat).map fun b => decimal b.toNat).map (ofDecimal 255) =
      (toBE 4 bits.toNat).map fun b => some b.toNat := by
    rw [List.map_map]
    exact List.map_congr_left fun b _ => hbyte b
  have hback : BitVec.ofNat 32 (ofBE (toBE 4 bits.toNat)) = bits := bitVec_ofBE_toBE bits rfl
  rw [parseIpv4, hsplit, hbytes]
  simp only [toBE, List.map_cons, List.map_nil, UInt8.ofNat_toNat] at hback ⊢
  rw [hback]

theorem notMem_ip {c : UInt8} (hc : c ∈ [slash, uniquePathSep, openBracket]) (a : IpAddr) : c ∉ ip a := by
  simp only [List.mem_cons, List.not_mem_nil, or_false] at hc
  cases a with
  | v4 bits =>
    refine notMem_intercalate ?_ fun part hpart => ?_
    · rcases hc with rfl | rfl | rfl <;> decide
    · obtain ⟨b, -, rfl⟩ := List.mem_map.mp hpart
      exact notMem_decimal (by rcases hc with rfl | rfl | rfl <;> decide) b.toNat
  | v6 bits =>
    refine notMem_grouped ?_ ?_ _
    · rcases hc with rfl | rfl | rfl <;> decide
    · rcases hc with rfl | rfl | rfl <;> decide

/-- There is a colon in an IPv6 address, but none in an IPv4 one. -/
theorem colon_notMem_ip (bits : BitVec 32) : colon ∉ ip (.v4 bits) := by
  refine notMem_intercalate (by decide) fun part hpart => ?_
  obtain ⟨b, -, rfl⟩ := List.mem_map.mp hpart
  exact notMem_decimal (by decide) b.toNat

theorem parseSocket_v4 (bits : BitVec 32) (p : BitVec 16) :
    parseSocket (ip (.v4 bits) ++ colon :: port p) = some (.v4 bits p) := by
  have hsplit : (ip (.v4 bits) ++ colon :: port p).splitOn colon = [ip (.v4 bits), port p] := by
    have hjoin : [colon].intercalate [ip (.v4 bits), port p] = ip (.v4 bits) ++ colon :: port p := by simp
    rw [← hjoin]
    refine List.splitOn_intercalate colon (fun part hm => ?_) (List.cons_ne_nil _ _)
    rcases List.mem_pair.mp hm with rfl | rfl
    · exact colon_notMem_ip bits
    · exact notMem_decimal (by decide) p.toNat
  have hport : ofDecimal 65535 (port p) = some p.toNat := ofDecimal_decimal (Nat.le_of_lt_succ p.isLt)
  rw [parseSocket, hsplit]
  simp [parseIpv4_ip, hport]

theorem lawful_texts : texts.Lawful where
  socket := parseSocket_v4
  bracketed s bits p flowinfo scopeId h := by
    change parseSocket s = _ at h
    unfold parseSocket at h
    split at h
    · simp [Option.bind_eq_some_iff] at h
    · obtain ⟨⟨bits, rest⟩, hv6, -⟩ := Option.bind_eq_some_iff.mp h
      cases s with
      | nil => cases hv6
      | cons c s =>
        rw [parseIpv6] at hv6
        split at hv6
        · rename_i hc
          rw [List.head?_cons, hc]
        · cases hv6
  unbracketed a hhead := notMem_ip (by decide) a (List.mem_of_head? hhead)
  parseUuid id := by
    show parseUuid (uuid id) = some id
    have hflat : (cut [4, 2, 2, 2, 6] (toBE 16 id.toNat)).flatten = toBE 16 id.toNat := by
      rw [flatten_cut]
      exact List.take_of_length_le (Nat.le_of_eq (length_toBE 16 id.toNat))
    rw [parseUuid, uuid, ofGrouped_grouped (by decide), hflat, Option.map_some]
    exact congrArg some (bitVec_ofBE_toBE id rfl)
  ip_plain a := ⟨notMem_ip (by decide) a, notMem_ip (by decide) a⟩
  port_plain p := ⟨notMem_decimal (by decide) p.toNat, notMem_decimal (by decide) p.toNat⟩
  uuid_plain id := ⟨notMem_grouped (by decide) (by decide) _, notMem_grouped (by decide) (by decide) _⟩

end StdText

/-- Every path that can be looked up comes back from its text exactly if its
address is an IPv4 one. Every path that was parsed can be looked up, and comes
back from its own text under the same condition. -/
theorem fromStr_display_iff (t : Texts) (h : t.Lawful) :
    (∀ path : ActorPath, path.LookupNamed →
      (ActorPath.fromStr t (path.display t) = .ok path ↔ path.system.address.isV4 = true)) ∧
    ∀ s path, ActorPath.fromStr t s = .ok path → path.LookupNamed ∧
      (ActorPath.fromStr t (path.display t) = .ok path ↔ path.system.address.isV4 = true) :=
  ⟨fun _ hpath => roundTrip_iff h hpath, fun _ _ hs =>
    ⟨lookupNamed_of_fromStr hs, roundTrip_iff h (lookupNamed_of_fromStr hs)⟩⟩

/-- `tcp://127.0.0.1:8080/pongers/*` comes back, and its text is parsed to a path
that does. -/
theorem fromStr_display_iff_pongers :
    let path : ActorPath := .named ⟨.tcp, .v4 0x7F000001, 8080⟩ [[0x70, 0x6F, 0x6E, 0x67, 0x65, 0x72, 0x73], [0x2A]]
    ActorPath.fromStr StdText.texts (path.display StdText.texts) = .ok path ∧ path.LookupNamed := by
  intro path
  obtain ⟨hprinted, hparsed⟩ := fromStr_display_iff StdText.texts StdText.lawful_texts
  have hback : ActorPath.fromStr StdText.texts (path.display StdText.texts) = .ok path := (hprinted path rfl).mpr rfl
  exact ⟨hback, (hparsed _ path hback).1⟩

/-- The text of a path with the address `2001:1db8:1111:2222:3333:4444:5555:6666`
is not parsed. -/
theorem fromStr_display_v6 :
    let path : ActorPath := .named ⟨.tcp, .v6 0x20011db8111122223333444455556666, 8080⟩ [[0x61]]
    path.LookupNamed ∧ ActorPath.fromStr StdText.texts (path.display StdText.texts) = .error .addr := by
  intro path
  exact ⟨rfl, by decide +kernel⟩

end Kompact
