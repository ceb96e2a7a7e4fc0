import Kompact.Dispatch.Groups

/-!
# The grammar of lookup paths

The documented rule forbids separators and empty segments, and allows a marker
only as the whole of the last segment. The validation rejects a marker only
where it is a segment before the last: inside of a longer segment it passes. A
lookup looks at the first character of the last segment and takes it for a
marker whatever comes behind it. `followsRule_iff` says for which paths the
validation, the lookup and the rule agree.
-/

namespace Kompact

/-- The documented rule for a lookup path. -/
structure LookupGrammar (path : List Utf8) : Prop where
  nonempty : ∀ segment ∈ path, segment ≠ []
  separators : ∀ segment ∈ path, slash ∉ segment ∧ uniquePathSep ∉ segment
  /-- There are no markers before the last segment. -/
  inLast : ∀ segment ∈ path.dropLast, broadcastMarker ∉ segment ∧ selectMarker ∉ segment
  /-- A marker is all of the last segment. -/
  alone : ∀ segment ∈ path.getLast?, ∀ marker ∈ [broadcastMarker, selectMarker], marker ∈ segment → segment = [marker]

/-- No segment of more than one character has a marker in it. -/
def MarkersAlone (path : List Utf8) : Prop :=
  ∀ segment ∈ path, segment.length ≠ 1 → broadcastMarker ∉ segment ∧ selectMarker ∉ segment

/-- The rule asks for what is validated, and for markers to stand alone. -/
theorem lookupGrammar_iff {path : List Utf8} : LookupGrammar path ↔ CleanPath path ∧ MarkersAlone path := by
  constructor
  · intro h
    refine ⟨⟨h.nonempty, h.separators, fun segment hm => ⟨?_, ?_⟩⟩, fun segment hm hlen => ?_⟩
    · rintro rfl
      exact (h.inLast _ hm).1 (List.mem_singleton_self _)
    · rintro rfl
      exact (h.inLast _ hm).2 (List.mem_singleton_self _)
    · cases hlast : path.getLast? with
      | none =>
        rw [List.getLast?_eq_none_iff.mp hlast] at hm
        cases hm
      | some last =>
        rw [← List.dropLast_append_getLast? last hlast, List.mem_append, List.mem_singleton] at hm
        rcases hm with hm | rfl
        · exact h.inLast _ hm
        · refine ⟨fun hb => hlen ?_, fun hs => hlen ?_⟩
          · rw [h.alone _ hlast broadcastMarker (by simp) hb]
            rfl
          · rw [h.alone _ hlast selectMarker (by simp) hs]
            rfl
  · rintro ⟨h, halone⟩
    refine ⟨h.nonempty, h.separators, fun segment hm => ?_, fun segment hm marker hmarker hmem => ?_⟩
    · by_cases hlen : segment.length = 1
      · rw [mem_of_length_one hlen, mem_of_length_one hlen]
        exact h.inLast segment hm
      · exact halone segment (List.mem_of_mem_dropLast hm) hlen
    · by_cases hlen : segment.length = 1
      · exact (mem_of_length_one hlen marker).mp hmem
      · obtain ⟨hb, hs⟩ := halone segment (List.mem_of_getLast? hm) hlen
        rcases List.mem_pair.mp hmarker with rfl | rfl <;> contradiction

/-! ## What is looked up -/

/-- A lookup takes a path that is validated as the code splits it. -/
theorem getByNamedPath_addressed {R P : Type} (debug implicitRoutes : Bool) (store : ActorStore R P)
    {path : List Utf8} (h : validateLookupPath path = .ok ()) (hne : path ≠ []) :
    store.getByNamedPath debug implicitRoutes path =
      ActorStore.markedResult implicitRoutes store path (ActorStore.addressed path) := by
  obtain ⟨last, hlast⟩ := Option.isSome_iff_exists.mp (List.getLast?_isSome.mpr hne)
  rw [ActorStore.getByNamedPath_concat debug implicitRoutes store hlast fun _ => h]
  have hlast_ne : last ≠ [] := LookupPath.ne_nil h last (List.mem_of_getLast? hlast)
  unfold ActorStore.addressed
  rw [hlast]
  cases last with
  | nil => exact absurd rfl hlast_ne
  | cons c cs => rfl

/-- Where a marker is taken, it is the first character of the last segment. -/
theorem addressed_isSome_iff {path : List Utf8} :
    (ActorStore.addressed path).2.isSome ↔
      ∃ c cs, path.getLast? = some (c :: cs) ∧ (c = broadcastMarker ∨ c = selectMarker) := by
  unfold ActorStore.addressed
  split
  · rename_i c cs hlast
    unfold ActorStore.splitMarker
    rw [hlast]
    by_cases hb : c = broadcastMarker
    · simp [hb]
    · by_cases hs : c = selectMarker <;> simp [hb, hs, ActorStore.select_ne_broadcast]
  · rename_i hno
    simp only [Option.isSome_none, Bool.false_eq_true, false_iff]
    rintro ⟨c, cs, hlast, -⟩
    exact hno c cs hlast

/-- The validation, the lookup and the rule agree on a path. -/
structure FollowsRule (R P : Type) (path : List Utf8) : Prop where
  valid : validateLookupPath path = .ok () ↔ LookupGrammar path
  /-- A path that is accepted is looked up by its markers. -/
  lookup : validateLookupPath path = .ok () → path ≠ [] → ∀ (debug implicitRoutes : Bool) (store : ActorStore R P),
    store.getByNamedPath debug implicitRoutes path =
      ActorStore.markedResult implicitRoutes store path (ActorStore.addressed path)
  /-- A marker is taken exactly where one is the last segment. -/
  marker : validateLookupPath path = .ok () →
    ((ActorStore.addressed path).2.isSome ↔
      path.getLast? = some [broadcastMarker] ∨ path.getLast? = some [selectMarker])
  /-- A path is looked up literally where no marker is taken. -/
  literal : (ActorStore.addressed path).2 = none → (ActorStore.addressed path).1 = path
  inserted : validateInsertPath path = .ok () → ActorStore.addressed path = (path, none)

/-- The validation, the lookup and the rule agree exactly if the path is
rejected for another reason, or has no marker inside of a longer segment. -/
theorem followsRule_iff (R P : Type) (path : List Utf8) :
    FollowsRule R P path ↔ (CleanPath path → MarkersAlone path) := by
  constructor
  · intro h hclean
    exact (lookupGrammar_iff.mp (h.valid.mp (validateLookupPath_ok_iff.mpr hclean))).2
  · intro halone
    have hvalid : validateLookupPath path = .ok () ↔ LookupGrammar path := by
      rw [validateLookupPath_ok_iff, lookupGrammar_iff]
      exact (and_iff_left_of_imp halone).symm
    refine ⟨hvalid, fun h hne debug implicitRoutes store =>
      getByNamedPath_addressed debug implicitRoutes store h hne, fun h => ?_, fun h => ?_, ActorStore.addressed_plain⟩
    · rw [addressed_isSome_iff]
      constructor
      · rintro ⟨c, cs, hlast, hc⟩
        have hall := (hvalid.mp h).alone _ hlast c (by simpa using hc) List.mem_cons_self
        rw [hlast, hall]
        exact hc.imp (fun hb => by rw [hb]) fun hs => by rw [hs]
      · rintro (hlast | hlast)
        · exact ⟨_, _, hlast, .inl rfl⟩
        · exact ⟨_, _, hlast, .inr rfl⟩
    · unfold ActorStore.addressed at h ⊢
      split
      · rename_i c cs hlast
        simp only [hlast, ActorStore.splitMarker] at h ⊢
        split_ifs at h ⊢
        rfl
      · rfl

/-- The path `a/*b` is accepted, and its lookup addresses `a`. -/
theorem not_followsRule_marker_inside : ¬ FollowsRule Nat Unit [[0x61], [0x2A, 0x62]] := by
  intro h
  have hvalid : validateLookupPath [[0x61], [0x2A, 0x62]] = .ok () := rfl
  have htaken : (ActorStore.addressed [[0x61], [0x2A, 0x62]]).2.isSome := rfl
  have hlast := (h.marker hvalid).mp htaken
  simp at hlast

end Kompact
