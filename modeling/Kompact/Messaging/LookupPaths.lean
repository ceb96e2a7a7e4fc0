import Kompact.Messaging.Paths

/-!
# Paths for a lookup and for an insertion

A path can be looked up if no segment is empty or has a separator in it, and
a marker stands alone only in the last one. It can be inserted if no segment is
empty or has a separator or a marker in it.
-/

namespace Kompact

/-- The characters with a meaning in paths, by their bytes. All are ASCII, so
these bytes are part of no other character. -/
def uniquePathSep : UInt8 := 0x23

def broadcastMarker : UInt8 := 0x2A

def selectMarker : UInt8 := 0x3F

inductive PathParseError where
  | form (msg : String)
  /-- `Form` with the text that was parsed. -/
  | formText (s : Utf8)
  | transport
  | addr
  | illegalCharacter (c : UInt8)
  deriving DecidableEq, Repr

/-- The check of one character of a segment of length `len`. -/
def checkLookupChar (len : Nat) (isLast : Bool) (c : UInt8) : Except PathParseError Unit :=
  if c = slash then .error (.illegalCharacter slash)
  else if c = broadcastMarker ∧ !isLast ∧ len = 1 then .error (.illegalCharacter broadcastMarker)
  else if c = selectMarker ∧ !isLast ∧ len = 1 then .error (.illegalCharacter selectMarker)
  else if c = uniquePathSep then .error (.illegalCharacter uniquePathSep)
  else .ok ()

def validateLookupPathSegment (segment : Utf8) (isLast : Bool) : Except PathParseError Unit :=
  if segment = [] then .error (.form "Path segments may not be empty!")
  else segment.forM (checkLookupChar segment.length isLast)

def validateLookupPath : List Utf8 → Except PathParseError Unit
  | [] => .ok ()
  | segment :: path => do
    validateLookupPathSegment segment path.isEmpty
    validateLookupPath path

/-- The check of one character of a segment to insert. -/
def checkInsertChar (c : UInt8) : Except PathParseError Unit :=
  if c = slash then .error (.illegalCharacter slash)
  else if c = broadcastMarker then .error (.illegalCharacter broadcastMarker)
  else if c = selectMarker then .error (.illegalCharacter selectMarker)
  else if c = uniquePathSep then .error (.illegalCharacter uniquePathSep)
  else .ok ()

def validateInsertPathSegment (segment : Utf8) : Except PathParseError Unit :=
  if segment = [] then .error (.form "Path segments may not be empty!")
  else segment.forM checkInsertChar

def validateInsertPath : List Utf8 → Except PathParseError Unit
  | [] => .ok ()
  | segment :: path => do
    validateInsertPathSegment segment
    validateInsertPath path

/-- Split a string at the separators. -/
def parsePath (s : Utf8) : List Utf8 := s.splitOn slash

/-- A path that can be looked up. -/
def LookupPath (path : List Utf8) : Prop := validateLookupPath path = .ok ()

instance (path : List Utf8) : Decidable (LookupPath path) := inferInstanceAs (Decidable (_ = _))

theorem LookupPath.ne_nil {path : List Utf8} (h : LookupPath path) : ∀ segment ∈ path, segment ≠ [] := by
  induction path with
  | nil => exact fun _ hm => by cases hm
  | cons segment path ih =>
    unfold LookupPath validateLookupPath at h
    cases hs : validateLookupPathSegment segment path.isEmpty with
    | error e => rw [hs] at h; cases h
    | ok _ =>
      rw [hs] at h
      intro s hm
      rcases List.mem_cons.mp hm with rfl | hm
      · intro hnil
        rw [validateLookupPathSegment, if_pos hnil] at hs
        cases hs
      · exact ih h s hm

theorem checkInsertChar_ok_iff {c : UInt8} :
    checkInsertChar c = .ok () ↔ c ≠ slash ∧ c ≠ broadcastMarker ∧ c ≠ selectMarker ∧ c ≠ uniquePathSep := by
  unfold checkInsertChar
  split_ifs <;> simp [*]

/-- The check of a lookup passes where that of an insertion does. -/
theorem checkLookupChar_of_insert {c : UInt8} (h : checkInsertChar c = .ok ()) (len : Nat) (isLast : Bool) :
    checkLookupChar len isLast c = .ok () := by
  obtain ⟨h₁, h₂, h₃, h₄⟩ := checkInsertChar_ok_iff.mp h
  simp [checkLookupChar, h₁, h₂, h₃, h₄]

/-- Two checks in turn pass if both do. -/
theorem bind_ok_iff {ε : Type} {first second : Except ε Unit} :
    (first >>= fun _ => second) = .ok () ↔ first = .ok () ∧ second = .ok () := by
  cases first with
  | error e => simp [bind, Except.bind]
  | ok _ => simp [bind, Except.bind]

/-- A loop of checks passes if each does. -/
theorem forM_ok_iff {α ε : Type} (check : α → Except ε Unit) (l : List α) :
    forM l check = .ok () ↔ ∀ a ∈ l, check a = .ok () := by
  induction l with
  | nil => simp [pure, Except.pure]
  | cons a l ih => rw [List.forM_cons, bind_ok_iff, List.forall_mem_cons, ih]

theorem validateInsertPathSegment_ok_iff {segment : Utf8} :
    validateInsertPathSegment segment = .ok () ↔
      segment ≠ [] ∧ ∀ c ∈ segment, checkInsertChar c = .ok () := by
  unfold validateInsertPathSegment
  by_cases h : segment = []
  · simp [h]
  · rw [if_neg h, and_iff_right h]
    exact forM_ok_iff checkInsertChar segment

theorem validateInsertPath_ok_iff {path : List Utf8} :
    validateInsertPath path = .ok () ↔
      ∀ segment ∈ path, segment ≠ [] ∧ ∀ c ∈ segment, checkInsertChar c = .ok () := by
  induction path with
  | nil => simp [validateInsertPath]
  | cons segment path ih =>
    rw [validateInsertPath, bind_ok_iff, List.forall_mem_cons, ih, validateInsertPathSegment_ok_iff]

/-- A path that can be inserted can be looked up. -/
theorem LookupPath.of_insert {path : List Utf8} (h : validateInsertPath path = .ok ()) : LookupPath path := by
  rw [validateInsertPath_ok_iff] at h
  unfold LookupPath
  induction path with
  | nil => rfl
  | cons segment path ih =>
    obtain ⟨⟨hne, hchars⟩, hpath⟩ := List.forall_mem_cons.mp h
    have hsegment : validateLookupPathSegment segment path.isEmpty = .ok () := by
      rw [validateLookupPathSegment, if_neg hne]
      exact (forM_ok_iff _ segment).mpr fun c hc => checkLookupChar_of_insert (hchars c hc) _ _
    rw [validateLookupPath, bind_ok_iff]
    exact ⟨hsegment, ih hpath⟩

/-! ## What the validation lets pass -/

/-- There is no empty segment and no separator, and no marker as a segment before
the last. -/
structure CleanPath (path : List Utf8) : Prop where
  nonempty : ∀ segment ∈ path, segment ≠ []
  separators : ∀ segment ∈ path, slash ∉ segment ∧ uniquePathSep ∉ segment
  inLast : ∀ segment ∈ path.dropLast, segment ≠ [broadcastMarker] ∧ segment ≠ [selectMarker]

theorem checkLookupChar_ok_iff {len : Nat} {isLast : Bool} {c : UInt8} :
    checkLookupChar len isLast c = .ok () ↔ c ≠ slash ∧ c ≠ uniquePathSep ∧
      (isLast = false → len = 1 → c ≠ broadcastMarker ∧ c ≠ selectMarker) := by
  unfold checkLookupChar
  cases isLast <;> grind

theorem mem_of_length_one {segment : Utf8} (h : segment.length = 1) (c : UInt8) : c ∈ segment ↔ segment = [c] := by
  obtain ⟨d, rfl⟩ := List.length_eq_one_iff.mp h
  simp [eq_comm]

theorem validateLookupPathSegment_ok_iff {segment : Utf8} {isLast : Bool} :
    validateLookupPathSegment segment isLast = .ok () ↔ segment ≠ [] ∧
      (slash ∉ segment ∧ uniquePathSep ∉ segment) ∧
      (isLast = false → segment ≠ [broadcastMarker] ∧ segment ≠ [selectMarker]) := by
  unfold validateLookupPathSegment
  by_cases hne : segment = []
  · simp [hne]
  rw [if_neg hne, and_iff_right hne]
  refine (forM_ok_iff _ segment).trans ?_
  simp only [checkLookupChar_ok_iff]
  constructor
  · intro h
    refine ⟨⟨fun hm => (h _ hm).1 rfl, fun hm => (h _ hm).2.1 rfl⟩, fun hlast => ⟨?_, ?_⟩⟩
    · rintro rfl
      exact ((h _ (List.mem_singleton_self _)).2.2 hlast rfl).1 rfl
    · rintro rfl
      exact ((h _ (List.mem_singleton_self _)).2.2 hlast rfl).2 rfl
  · rintro ⟨⟨hslash, hsep⟩, hmarkers⟩ c hc
    refine ⟨?_, ?_, fun hlast hlen => ?_⟩
    · rintro rfl
      exact hslash hc
    · rintro rfl
      exact hsep hc
    · obtain ⟨hb, hs⟩ := hmarkers hlast
      have hone := (mem_of_length_one hlen c).mp hc
      refine ⟨?_, ?_⟩ <;> rintro rfl <;> contradiction

/-- What the validation of a lookup path lets pass. -/
theorem validateLookupPath_ok_iff {path : List Utf8} : validateLookupPath path = .ok () ↔ CleanPath path := by
  induction path with
  | nil => exact iff_of_true rfl ⟨by simp, by simp, by simp⟩
  | cons segment path ih =>
    rw [validateLookupPath, bind_ok_iff, ih, validateLookupPathSegment_ok_iff]
    constructor
    · rintro ⟨⟨hne, hsep, hlast⟩, h⟩
      refine ⟨List.forall_mem_cons.mpr ⟨hne, h.nonempty⟩, List.forall_mem_cons.mpr ⟨hsep, h.separators⟩, ?_⟩
      cases path with
      | nil => simp
      | cons next path => exact List.forall_mem_cons.mpr ⟨hlast rfl, h.inLast⟩
    · rintro ⟨hne, hsep, hlast⟩
      obtain ⟨hne₁, hne⟩ := List.forall_mem_cons.mp hne
      obtain ⟨hsep₁, hsep⟩ := List.forall_mem_cons.mp hsep
      cases path with
      | nil => exact ⟨⟨hne₁, hsep₁, fun h => by cases h⟩, hne, hsep, by simp⟩
      | cons next path =>
        obtain ⟨hlast₁, hlast⟩ := List.forall_mem_cons.mp hlast
        exact ⟨⟨hne₁, hsep₁, fun _ => hlast₁⟩, hne, hsep, hlast⟩

end Kompact
