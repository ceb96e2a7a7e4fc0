import Kompact.Dispatch.Groups

/-!
# Removing actors

The actors that are gone, be it one that is removed or all that were
deallocated, are taken out of the ids and the names of a store, and policies
and other actors stay (`sweep`). The deadletter box is not looked at: the empty
path goes on leading to it. `removal_iff` says that this is all that is missed.
-/

namespace Kompact

namespace PathTrie

variable {V : Type}

/-- What `retain` leaves of the entries. -/
theorem Pruned.retain_entries {trie : PathTrie V} (h : trie.Pruned) (condition : V → Bool) :
    (trie.retain condition).1.entries.Perm (trie.entries.filter fun e => condition e.2) := by
  rw [List.perm_ext_iff_of_nodup (h.retain condition).nodup_entries (h.nodup_entries.filter _)]
  rintro ⟨key, v⟩
  rw [(h.retain condition).mem_entries, retain_get condition h, Option.filter_eq_some_iff, List.mem_filter,
    h.mem_entries]

/-- What `retain` counts is what it removes. -/
theorem Pruned.retain_count {trie : PathTrie V} (h : trie.Pruned) (condition : V → Bool) :
    (trie.retain condition).2 + (trie.retain condition).1.entries.length = trie.entries.length := by
  have hcount : (trie.retain condition).2 = (trie.entries.filter fun e => !condition e.2).length := by
    rw [retain_snd, removed, ← entries_values, List.filter_map, List.length_map]
    rfl
  rw [hcount, (h.retain_entries condition).length_eq, Nat.add_comm]
  exact (List.length_eq_length_filter_add _).symm

end PathTrie

namespace ActorStore

variable {R P : Type}

/-- The entries of all structures. -/
def entryCount (store : ActorStore R P) : Nat :=
  store.uuidMap.entries.length + store.nameMap.entries.length + store.deadletter.toList.length

/-- The actors that are `gone` are not found any more, all else is as before,
and `count` says how many entries were removed. -/
structure Removes (debug implicitRoutes : Bool) (gone : R → Bool) (store store' : ActorStore R P) (count : Nat) :
    Prop where
  byUuid : ∀ id aref, store'.uuidMap.lookup id = some aref → gone aref = false
  byPath : ∀ path aref, store'.getByNamedPath debug implicitRoutes path = .ok (.ref aref) → gone aref = false
  inGroups : ∀ path group, store'.getByNamedPath debug implicitRoutes path = .ok (.group group) →
    ∀ aref ∈ group.members, gone aref = false
  uuids : ∀ id aref, gone aref = false →
    (store'.uuidMap.lookup id = some aref ↔ store.uuidMap.lookup id = some aref)
  names : ∀ key aref, gone aref = false →
    (store'.nameMap.get key = some (.ref aref) ↔ store.nameMap.get key = some (.ref aref))
  policies : ∀ key policy,
    store'.nameMap.get key = some (.policy policy) ↔ store.nameMap.get key = some (.policy policy)
  deadletter : ∀ aref, gone aref = false → (store'.deadletter = some aref ↔ store.deadletter = some aref)
  count : count + store'.entryCount = store.entryCount

/-! ## Taking actors out of the ids and the names -/

/-- The entries without the actors that are `gone`. -/
def sweep (gone : R → Bool) (store : ActorStore R P) : ActorStore R P × Nat :=
  let (store, uuids) := store.removeUuids gone
  let (store, names) := store.retainNames fun aref => !gone aref
  (store, uuids + names)

variable {gone : R → Bool} {store : ActorStore R P}

theorem removeUuids_lookup (gone : R → Bool) (store : ActorStore R P) (id : BitVec 128) :
    (store.removeUuids gone).1.uuidMap.lookup id = (store.uuidMap.lookup id).filter fun aref => !gone aref :=
  AssocMap.lookup_eraseValues store.uuidMap gone id

theorem removeUuids_count (gone : R → Bool) (store : ActorStore R P) :
    (store.removeUuids gone).2 + (store.removeUuids gone).1.uuidMap.entries.length = store.uuidMap.entries.length := by
  have hleft : (store.removeUuids gone).1.uuidMap.entries.length =
      (store.uuidMap.filterValues fun aref => !gone aref).entries.length := by
    refine AssocMap.length_of_lookup fun id => ?_
    rw [removeUuids_lookup, AssocMap.lookup_filterValues]
  have hcount : (store.removeUuids gone).2 = (store.uuidMap.entries.filter fun e => gone e.2).length :=
    List.length_map ..
  rw [hleft, hcount]
  exact (List.length_eq_length_filter_add fun e : Σ _ : BitVec 128, R => gone e.2).symm

/-- The test of `retain` in the trie. -/
def keepsEntry (keep : R → Bool) : ActorTreeEntry R P → Bool
  | .ref aref => keep aref
  | .policy _ => true

theorem retainNames_get (store : ActorStore R P) (h : store.nameMap.Pruned) (keep : R → Bool) (key : List Utf8) :
    (store.retainNames keep).1.nameMap.get key = (store.nameMap.get key).filter (keepsEntry keep) :=
  PathTrie.retain_get _ h key

theorem retainNames_count (store : ActorStore R P) (h : store.nameMap.Pruned) (keep : R → Bool) :
    (store.retainNames keep).2 + (store.retainNames keep).1.nameMap.entries.length = store.nameMap.entries.length :=
  h.retain_count _

theorem sweep_lookup (gone : R → Bool) (store : ActorStore R P) (id : BitVec 128) :
    (store.sweep gone).1.uuidMap.lookup id = (store.uuidMap.lookup id).filter fun aref => !gone aref :=
  removeUuids_lookup gone store id

theorem sweep_get (h : store.nameMap.Pruned) (gone : R → Bool) (key : List Utf8) :
    (store.sweep gone).1.nameMap.get key = (store.nameMap.get key).filter (keepsEntry fun aref => !gone aref) :=
  retainNames_get (store.removeUuids gone).1 h _ key

theorem sweep_count (h : store.nameMap.Pruned) (gone : R → Bool) :
    (store.sweep gone).2 + (store.sweep gone).1.entryCount = store.entryCount := by
  have huuids := removeUuids_count gone store
  have hnames := retainNames_count (store.removeUuids gone).1 h fun aref => !gone aref
  show (store.removeUuids gone).2 + ((store.removeUuids gone).1.retainNames fun aref => !gone aref).2 +
    ((store.removeUuids gone).1.uuidMap.entries.length +
      ((store.removeUuids gone).1.retainNames fun aref => !gone aref).1.nameMap.entries.length +
      store.deadletter.toList.length) =
    store.uuidMap.entries.length + store.nameMap.entries.length + store.deadletter.toList.length
  have hsame : (store.removeUuids gone).1.nameMap = store.nameMap := rfl
  rw [hsame] at hnames
  omega

/-- No actor that is gone is left under a name. -/
theorem sweep_get_ref (h : store.nameMap.Pruned) {key : List Utf8} {aref : R}
    (hget : (store.sweep gone).1.nameMap.get key = some (.ref aref)) : gone aref = false := by
  rw [sweep_get h, Option.filter_eq_some_iff] at hget
  simpa [keepsEntry] using hget.2

/-- Only the deadletter box is missed: where it is one of the actors that are
gone, the empty path still leads to it. -/
theorem removes_sweep_iff (debug implicitRoutes : Bool) (h : store.nameMap.Pruned) (gone : R → Bool) :
    Removes debug implicitRoutes gone store (store.sweep gone).1 (store.sweep gone).2 ↔
      ∀ aref ∈ store.deadletter, gone aref = false := by
  have hpruned : (store.sweep gone).1.nameMap.Pruned := h.retain _
  constructor
  · intro hr aref hdead
    have hempty : (store.sweep gone).1.getByNamedPath debug implicitRoutes [] = .ok (.ref aref) :=
      congrArg (Except.ok ∘ LookupResult.ofOption) hdead
    exact hr.byPath [] aref hempty
  · intro hdead
    refine ⟨fun id aref hfound => ?_, fun path aref hfound => ?_, fun path group hfound aref hm => ?_,
      fun id aref hstays => ?_, fun key aref hstays => ?_, fun key policy => ?_, fun _ _ => Iff.rfl, sweep_count h gone⟩
    · rw [sweep_lookup, Option.filter_eq_some_iff] at hfound
      simpa using hfound.2
    · rcases found_ref debug implicitRoutes hpruned hfound with hd | ⟨key, hget⟩
      · exact hdead aref hd
      · exact sweep_get_ref h hget
    · obtain ⟨key, hget⟩ := found_member debug implicitRoutes hpruned hfound hm
      exact sweep_get_ref h hget
    · rw [sweep_lookup, Option.filter_eq_some_iff]
      simp [hstays]
    · rw [sweep_get h, Option.filter_eq_some_iff]
      simp [keepsEntry, hstays]
    · rw [sweep_get h, Option.filter_eq_some_iff]
      simp [keepsEntry]

/-! ## The operations -/

/-- A live actor equals the references to it. -/
theorem refEq_live [DecidableEq R] {canUpgrade : R → Bool} {actor : R} (h : canUpgrade actor = true) (other : R) :
    refEq canUpgrade other actor = (other == actor) ∧ refEq canUpgrade actor other = (other == actor) := by
  unfold refEq
  by_cases heq : other = actor
  · subst heq
    simp [h]
  · simp [beq_false_of_ne heq, beq_false_of_ne (Ne.symm heq)]

theorem remove_eq_sweep [DecidableEq R] {canUpgrade : R → Bool} {actor : R} (h : canUpgrade actor = true)
    (store : ActorStore R P) : store.remove canUpgrade actor = store.sweep (· == actor) := by
  have huuids : store.removeFromUuidMap canUpgrade actor = store.removeUuids (· == actor) :=
    congrArg store.removeUuids (funext fun other => (refEq_live h other).1)
  have hnames : ∀ store : ActorStore R P,
      store.removeFromNameMap canUpgrade actor = store.retainNames fun aref => !(aref == actor) := fun store =>
    congrArg store.retainNames (funext fun other => congrArg not (refEq_live h other).2)
  unfold remove sweep
  rw [huuids]
  simp only [hnames]

theorem cleanup_eq_sweep (canUpgrade : R → Bool) (store : ActorStore R P) :
    store.cleanup canUpgrade = store.sweep (!canUpgrade ·) := by
  have hkeep : (fun aref => !!canUpgrade aref) = canUpgrade := funext fun aref => Bool.not_not _
  unfold cleanup sweep
  rw [hkeep]
  refine Prod.ext rfl ?_
  exact Nat.add_comm ..

/-- After every run of operations, the removal of a live actor takes out all of
its entries exactly if it is not the deadletter box, and a clean-up those of
all deallocated actors exactly if the deadletter box was not deallocated. -/
theorem removal_iff [DecidableEq R] (debug implicitRoutes : Bool) (ops : List (Op R P)) (canUpgrade : R → Bool)
    (actor : R) (h : canUpgrade actor = true) :
    (Removes debug implicitRoutes (· == actor) (run ops) ((run ops).remove canUpgrade actor).1
        ((run ops).remove canUpgrade actor).2 ↔ (run ops).deadletter ≠ some actor) ∧
      (Removes debug implicitRoutes (!canUpgrade ·) (run ops) ((run ops).cleanup canUpgrade).1
        ((run ops).cleanup canUpgrade).2 ↔ ∀ aref ∈ (run ops).deadletter, canUpgrade aref = true) := by
  have hpruned : (run ops).nameMap.Pruned := pruned_run ops
  constructor
  · rw [remove_eq_sweep h, removes_sweep_iff debug implicitRoutes hpruned]
    cases (run ops).deadletter with
    | none => simp
    | some aref => simp
  · rw [cleanup_eq_sweep, removes_sweep_iff debug implicitRoutes hpruned]
    simp

/-- An actor that is registered under an id and a name, beside a policy. -/
def registered : List (Op Nat Unit) :=
  [.insert (.actorId 1) 7, .insert (.segments [[0x61], [0x62]]) 7, .setRoutingPolicy [[0x61]] ⟨(), some (), none⟩,
    .insert (.alias [0x63]) 8, .insert .system 9]

/-- It is removed, and so is all that was deallocated. -/
theorem removal_iff_registered :
    Removes false true (· == 7) (run registered) ((run registered).remove (· != 8) 7).1
        ((run registered).remove (· != 8) 7).2 ∧
      Removes false true (!(· != 8) ·) (run registered) ((run registered).cleanup (· != 8)).1
        ((run registered).cleanup (· != 8)).2 := by
  have hiff := removal_iff false true registered (· != 8) 7 rfl
  have hdead : (run registered).deadletter = some 9 := rfl
  exact ⟨hiff.1.mpr (by simp [hdead]), hiff.2.mpr (by simp [hdead])⟩

/-- The deadletter box is found under the empty path when it was removed, and
the removal reports no entry. -/
theorem not_removes_deadletter :
    ¬ Removes false false (· == 7) (run [(.insert .system 7 : Op Nat Unit)])
      ((run [(.insert .system 7 : Op Nat Unit)]).remove (fun _ => true) 7).1
      ((run [(.insert .system 7 : Op Nat Unit)]).remove (fun _ => true) 7).2 := by
  intro h
  have hgone := h.byPath [] 7 rfl
  simp at hgone

end ActorStore

end Kompact
