import Kompact.Buffers.Memory

/-!
# Loops that avoid a clone

`for_each_with` and `for_each_try_with` give every item of an iterator a clone
of one value, and the last item the value itself. The iterator is a list; in
the loops it starts with what the variable `next` holds.

`given` are the items with what each of them gets. Both loops hand it out in
order (`forEachWith_eq`, `forEachTryWith_ok`).
-/

namespace Kompact.IterExtras

variable {I T S ε : Type}

/-- `while next.is_some()`, and the last item. -/
def forEachWithLoop (clone : T → T) (f : S → I → T → S) (t : T) : Option I → List I → S → Panics S
  | some item, next :: rest, s => forEachWithLoop clone f t (some next) rest (f s item (clone t))
  | none, _ :: _, _ => .error "called Option::unwrap() on a None value"
  | some item, [], s => .ok (f s item t)
  | none, [], s => .ok s

def forEachWith (clone : T → T) (f : S → I → T → S) (items : List I) (t : T) (s : S) : Panics S :=
  forEachWithLoop clone f t items.head? items.tail s

/-- The loop of `for_each_try_with`: an error of `try_clone` ends it. -/
def forEachTryWithLoop (tryClone : T → Panics (Except ε T)) (f : S → I → T → S) (t : T) :
    Option I → List I → S → Panics (Except ε Unit × S)
  | some item, next :: rest, s => do
    match ← tryClone t with
    | .ok cloned => forEachTryWithLoop tryClone f t (some next) rest (f s item cloned)
    | .error e => return (.error e, s)
  | none, _ :: _, _ => .error "called Option::unwrap() on a None value"
  | some item, [], s => .ok (.ok (), f s item t)
  | none, [], s => .ok (.ok (), s)

def forEachTryWith (tryClone : T → Panics (Except ε T)) (f : S → I → T → S) (items : List I) (t : T) (s : S) :
    Panics (Except ε Unit × S) :=
  forEachTryWithLoop tryClone f t items.head? items.tail s

/-- What each item gets: a clone, or the original for the last one. -/
def given (cloned t : T) : List I → List (I × T)
  | [] => []
  | [item] => [(item, t)]
  | item :: next :: rest => (item, cloned) :: given cloned t (next :: rest)

/-- No item is skipped and none comes twice. -/
theorem given_fst (cloned t : T) (items : List I) : (given cloned t items).map Prod.fst = items := by
  fun_induction given cloned t items with
  | case1 => rfl
  | case2 item => rfl
  | case3 item next rest ih => rw [List.map_cons, ih]

theorem given_self (t : T) (items : List I) : given t t items = items.map fun item => (item, t) := by
  fun_induction given t t items with
  | case1 => rfl
  | case2 item => rfl
  | case3 item next rest ih => rw [ih, List.map_cons (a := item)]

theorem given_snd {cloned t : T} {items : List I} {p : I × T} (h : p ∈ given cloned t items) :
    p.2 = cloned ∨ p.2 = t := by
  fun_induction given cloned t items with
  | case1 => cases h
  | case2 item => exact .inr (congrArg Prod.snd (List.mem_singleton.mp h))
  | case3 item next rest ih =>
    rcases List.mem_cons.mp h with rfl | h
    · exact .inl rfl
    · exact ih h

theorem forEachWith_eq (clone : T → T) (f : S → I → T → S) (items : List I) (t : T) (s : S) :
    forEachWith clone f items t s = .ok ((given (clone t) t items).foldl (fun s p => f s p.1 p.2) s) := by
  cases items with
  | nil => rfl
  | cons item rest =>
    show forEachWithLoop clone f t (some item) rest s = _
    induction rest generalizing item s with
    | nil => rfl
    | cons next rest ih => exact ih (f s item (clone t)) next

/-- If the value can be cloned, every item gets what it is given. -/
theorem forEachTryWith_ok {tryClone : T → Panics (Except ε T)} {t cloned : T} (h : tryClone t = .ok (.ok cloned))
    (f : S → I → T → S) (items : List I) (s : S) :
    forEachTryWith tryClone f items t s =
      .ok (.ok (), (given cloned t items).foldl (fun s p => f s p.1 p.2) s) := by
  cases items with
  | nil => rfl
  | cons item rest =>
    show forEachTryWithLoop tryClone f t (some item) rest s = _
    induction rest generalizing item s with
    | nil => rfl
    | cons next rest ih =>
      rw [forEachTryWithLoop, h]
      exact ih (f s item cloned) next

/-- If it cannot, a second item ends the loop before anything is done. -/
theorem forEachTryWith_error {tryClone : T → Panics (Except ε T)} {t : T} {e : ε} (h : tryClone t = .ok (.error e))
    (f : S → I → T → S) (items : List I) (s : S) :
    forEachTryWith tryClone f items t s =
      match items with
      | [] => .ok (.ok (), s)
      | [item] => .ok (.ok (), f s item t)
      | _ :: _ :: _ => .ok (.error e, s) := by
  match items with
  | [] => rfl
  | [item] => rfl
  | item :: next :: rest =>
    show forEachTryWithLoop tryClone f t (some item) (next :: rest) s = _
    rw [forEachTryWithLoop, h]
    rfl

end Kompact.IterExtras
