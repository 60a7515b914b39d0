import Ioscpp.Support.Action

/-!
# Decoding an object graph

A file of numbered objects, in which an object may refer to others by number, is
decoded by following the references from one object.  Each object has a
`Shape`: the references it holds and how its value is made of theirs.

Three readings of such a file are defined.

* `ObjectGraph.visit` keeps what it has decoded in a cache and marks the objects it
  is inside of, so a reference back to one of them is an error.
* `ObjectGraph.unfold` has no cache: it decodes every reference anew and fails when a
  reference repeats on the path from the first object.
* `ObjectGraph.Denotes` says which value an object stands for, when it stands for
  one.

`visit` and `unfold` have the same outcome, error included (`visit_eq_unfold`),
`unfold` finds exactly the value an object denotes (`unfold_eq_ok_iff`), and it
fails on an object that reaches a cycle (`unfold_of_cycle`).

## Main results

- `unfold_eq_ok_iff`: unfolding finds exactly the value that an object stands for.
- `unfold_of_cycle`: an object that reaches a cycle is not unfolded.
- `visit_eq_unfold`: decoding with a cache and unfolding have the same outcome.
-/

namespace Ioscpp.Support

open Relation

/-- How an object is made: the numbers of the objects it refers to, and its
value from theirs. -/
structure Shape (V : Type) where
  children : List Nat
  build : List V → V

/-- A value that refers to no other object. -/
def Shape.leaf {V : Type} (value : V) : Shape V := ⟨[], fun _ => value⟩

/-- A file of `count` numbered objects, with the two errors a reference can
be: a number beyond the last object, and an object inside itself. -/
structure ObjectGraph (ε V : Type) where
  count : Nat
  outOfRange : ε
  recursive : ε
  shape : Nat → Checked ε (Shape V)

/-- What a decoder keeps: the values decoded, and the objects it is inside. -/
structure Memo (V : Type) where
  cache : Nat → Option V
  active : Nat → Bool

namespace Memo

variable {V : Type}

def empty : Memo V := ⟨fun _ => none, fun _ => false⟩

def enter (memo : Memo V) (index : Nat) : Memo V :=
  { memo with active := Function.update memo.active index true }

def leave (memo : Memo V) (index : Nat) : Memo V :=
  { memo with active := Function.update memo.active index false }

def store (memo : Memo V) (index : Nat) (value : V) : Memo V :=
  { memo with cache := Function.update memo.cache index (some value) }

@[simp] theorem cache_enter (memo : Memo V) (index : Nat) :
    (memo.enter index).cache = memo.cache := rfl

@[simp] theorem cache_leave (memo : Memo V) (index : Nat) :
    (memo.leave index).cache = memo.cache := rfl

@[simp] theorem active_store (memo : Memo V) (index : Nat) (value : V) :
    (memo.store index value).active = memo.active := rfl

end Memo

namespace ObjectGraph

variable {ε V : Type} (graph : ObjectGraph ε V)

/-- Decodes one object, given how to decode those it refers to. -/
def expand (decode : Nat → Action ε (Memo V) V) (index : Nat) :
    Action ε (Memo V) V := do
  let shape ← Action.lift (graph.shape index)
  let values ← shape.children.mapM decode
  return shape.build values

/-- Decodes an object with a cache and marks; the fuel bounds the depth. -/
def visit : Nat → Nat → Action ε (Memo V) V
  | 0, _ => Action.lift (.error .outOfFuel)
  | fuel + 1, index => do
      let memo ← get
      if graph.count ≤ index then Action.fail graph.outOfRange
      else
        match memo.cache index with
        | some value => return value
        | none =>
            if memo.active index then Action.fail graph.recursive
            else do
              modify (·.enter index)
              let result ← Action.attempt (graph.expand (visit fuel) index)
              modify (·.leave index)
              match result with
              | .ok value => do
                  modify (·.store index value)
                  return value
              | .error e => Action.lift (.error e)

/-- Decodes an object by unfolding every reference, on the path that led to
it. -/
def unfold : Nat → List Nat → Nat → Checked ε V
  | 0, _, _ => .error .outOfFuel
  | fuel + 1, path, index =>
      if graph.count ≤ index then .error (.error graph.outOfRange)
      else if index ∈ path then .error (.error graph.recursive)
      else do
        let shape ← graph.shape index
        let values ← shape.children.mapM (unfold fuel (index :: path))
        return shape.build values

/-- An object refers to another. -/
def Child (i j : Nat) : Prop :=
  i < graph.count ∧ ∃ shape, graph.shape i = .ok shape ∧ j ∈ shape.children

/-- The value an object stands for. -/
inductive Denotes : Nat → V → Prop
  | node {index : Nat} {shape : Shape V} {values : List V}
      (hindex : index < graph.count) (hshape : graph.shape index = .ok shape)
      (hlength : values.length = shape.children.length)
      (hchildren : ∀ (i : Nat) (h : i < shape.children.length),
        Denotes (shape.children[i]) (values[i])) :
      Denotes index (shape.build values)

/-! ## Mapping a fallible function over a list -/

theorem mapM_eq_ok_iff {α β : Type} {f : α → Checked ε β} {as : List α}
    {bs : List β} :
    as.mapM f = .ok bs ↔ List.Forall₂ (fun a b => f a = .ok b) as bs := by
  induction as generalizing bs with
  | nil =>
      simp only [List.mapM_nil, pure_eq_ok, List.forall₂_nil_left_iff]
      exact ⟨fun h => by cases h; rfl, fun h => by rw [h]⟩
  | cons a as ih =>
      rw [List.mapM_cons, bind_eq_ok, List.forall₂_cons_left_iff]
      constructor
      · rintro ⟨b, hb, h⟩
        obtain ⟨bs', hbs, h⟩ := bind_eq_ok.mp h
        cases h
        exact ⟨b, bs', hb, ih.mp hbs, rfl⟩
      · rintro ⟨b, bs', hb, hbs, rfl⟩
        exact ⟨b, hb, by rw [ih.mpr hbs]; rfl⟩

/-- A function that succeeds on every member maps the list. -/
theorem mapM_of_forall_ok {α β : Type} {f : α → Checked ε β} {g : α → β}
    {as : List α} (h : ∀ a ∈ as, f a = .ok (g a)) :
    as.mapM f = .ok (as.map g) := by
  refine mapM_eq_ok_iff.mpr ?_
  rw [List.forall₂_map_right_iff, List.forall₂_same]
  exact h

/-- A list that fails to map fails at one of its members. -/
theorem exists_of_mapM_eq_error {α β : Type} {f : α → Checked ε β}
    {as : List α} {e : Fault ε} (h : as.mapM f = .error e) :
    ∃ a ∈ as, f a = .error e := by
  induction as with
  | nil => cases h
  | cons a as ih =>
      rw [List.mapM_cons] at h
      cases hfirst : f a with
      | error e' =>
          rw [hfirst] at h
          cases h
          exact ⟨a, by simp, hfirst⟩
      | ok b =>
          rw [hfirst, ok_bind] at h
          cases hrest : as.mapM f with
          | error e' =>
              rw [hrest] at h
              cases h
              obtain ⟨c, hc, hfail⟩ := ih hrest
              exact ⟨c, List.mem_cons_of_mem _ hc, hfail⟩
          | ok bs =>
              rw [hrest] at h
              cases h

/-! ## The value of an object -/

variable {graph}

/-- An object stands for the value its shape makes of what its children stand
for. -/
theorem denotes_iff {index : Nat} {value : V} :
    graph.Denotes index value ↔
      ∃ shape values, index < graph.count ∧ graph.shape index = .ok shape ∧
        List.Forall₂ graph.Denotes shape.children values ∧
        value = shape.build values := by
  constructor
  · rintro ⟨hindex, hshape, hlength, hchildren⟩
    refine ⟨_, _, hindex, hshape, ?_, rfl⟩
    exact List.forall₂_iff_get.mpr
      ⟨hlength.symm, fun i h _ => hchildren i h⟩
  · rintro ⟨shape, values, hindex, hshape, hvalues, rfl⟩
    obtain ⟨hlength, hget⟩ := List.forall₂_iff_get.mp hvalues
    exact .node hindex hshape hlength.symm fun i h => hget i h (hlength ▸ h)

/-- The same for an object whose shape is known. -/
theorem denotes_iff_of_shape {index : Nat} {shape : Shape V} {value : V}
    (hindex : index < graph.count) (hshape : graph.shape index = .ok shape) :
    graph.Denotes index value ↔
      ∃ values, List.Forall₂ graph.Denotes shape.children values ∧
        value = shape.build values := by
  rw [denotes_iff]
  constructor
  · rintro ⟨shape', values, -, hshape', hvalues, hvalue⟩
    rw [hshape] at hshape'
    cases hshape'
    exact ⟨values, hvalues, hvalue⟩
  · rintro ⟨values, hvalues, hvalue⟩
    exact ⟨shape, values, hindex, hshape, hvalues, hvalue⟩

/-- An object that refers to no other stands for its own value. -/
theorem denotes_leaf_iff {index : Nat} {value other : V}
    (hindex : index < graph.count)
    (hshape : graph.shape index = .ok (Shape.leaf value)) :
    graph.Denotes index other ↔ other = value := by
  rw [denotes_iff_of_shape hindex hshape]
  constructor
  · rintro ⟨values, -, rfl⟩
    rfl
  · rintro rfl
    exact ⟨[], .nil, rfl⟩

/-- An object stands for at most one value. -/
theorem Denotes.unique {index : Nat} {value other : V}
    (h : graph.Denotes index value) (h' : graph.Denotes index other) :
    value = other := by
  induction h generalizing other with
  | @node index shape values hindex hshape hlength hchildren ih =>
      obtain ⟨shape', values', -, hshape', hvalues, rfl⟩ := denotes_iff.mp h'
      rw [hshape] at hshape'
      cases hshape'
      obtain ⟨hlength', hget⟩ := List.forall₂_iff_get.mp hvalues
      congr 1
      refine List.ext_getElem (hlength.trans hlength') fun i hi hi' => ?_
      exact ih i (hlength ▸ hi) (hget i (hlength ▸ hi) hi')

/-- What an object that stands for a value refers to stands for one too. -/
theorem Denotes.of_child {i j : Nat} {value : V}
    (h : graph.Denotes i value) (hchild : graph.Child i j) :
    ∃ other, graph.Denotes j other := by
  obtain ⟨shape, values, -, hshape, hvalues, -⟩ := denotes_iff.mp h
  obtain ⟨-, shape', hshape', hmem⟩ := hchild
  rw [hshape] at hshape'
  cases hshape'
  obtain ⟨k, hk, rfl⟩ := List.getElem_of_mem hmem
  obtain ⟨hlength, hget⟩ := List.forall₂_iff_get.mp hvalues
  exact ⟨_, hget k hk (hlength ▸ hk)⟩

/-- Following references from an object that stands for a value ends. -/
theorem Denotes.acc {index : Nat} {value : V} (h : graph.Denotes index value) :
    Acc (fun j i => graph.Child i j) index := by
  induction h with
  | node hindex hshape hlength hchildren ih =>
      refine ⟨_, fun j hchild => ?_⟩
      obtain ⟨-, shape', hshape', hmem⟩ := hchild
      rw [hshape] at hshape'
      cases hshape'
      obtain ⟨k, hk, rfl⟩ := List.getElem_of_mem hmem
      exact ih k hk

private theorem not_of_acc {α : Type} {r : α → α → Prop} {a : α}
    (h : Acc r a) : ¬ r a a := by
  induction h with
  | intro a _ ih => exact fun ha => ih a ha ha

/-- No object that stands for a value refers back to itself. -/
theorem Denotes.not_cycle {index : Nat} {value : V}
    (h : graph.Denotes index value) : ¬ TransGen graph.Child index index := by
  intro hcycle
  have hacc := h.acc.transGen
  refine not_of_acc hacc ?_
  exact transGen_swap.mp hcycle

/-- Nor does any object it reaches. -/
theorem Denotes.not_reaches_cycle {i j : Nat} {value : V}
    (h : graph.Denotes i value) (hreach : ReflTransGen graph.Child i j) :
    ¬ TransGen graph.Child j j := by
  have hdenotes : ∃ other, graph.Denotes j other := by
    induction hreach with
    | refl => exact ⟨value, h⟩
    | tail _ hchild ih =>
        obtain ⟨other, hother⟩ := ih
        exact hother.of_child hchild
  obtain ⟨other, hother⟩ := hdenotes
  exact hother.not_cycle

/-! ## Unfolding -/

/-- The objects a decoder is inside of, when it comes to `index`: distinct, in
range, and each of them led to `index`. -/
structure OnPath (graph : ObjectGraph ε V) (path : List Nat) (index : Nat) : Prop where
  nodup : path.Nodup
  inRange : ∀ i ∈ path, i < graph.count
  reaches : ∀ i ∈ path, TransGen graph.Child i index

namespace OnPath

variable {path : List Nat} {index : Nat}

theorem nil (graph : ObjectGraph ε V) (index : Nat) : graph.OnPath [] index where
  nodup := List.nodup_nil
  inRange := by simp
  reaches := by simp

/-- A path has at most as many members as there are objects. -/
theorem length_le (h : graph.OnPath path index) : path.length ≤ graph.count := by
  have hsub : path ⊆ List.range graph.count := fun i hi =>
    List.mem_range.mpr (h.inRange i hi)
  have hle := (h.nodup.subperm hsub).length_le
  rwa [List.length_range] at hle

/-- Going into `index` extends the path for each of its children. -/
theorem cons (h : graph.OnPath path index) (hnew : index ∉ path)
    {child : Nat} (hchild : graph.Child index child) :
    graph.OnPath (index :: path) child where
  nodup := List.nodup_cons.mpr ⟨hnew, h.nodup⟩
  inRange := by
    intro i hi
    rcases List.mem_cons.mp hi with rfl | hi
    · exact hchild.1
    · exact h.inRange i hi
  reaches := by
    intro i hi
    rcases List.mem_cons.mp hi with rfl | hi
    · exact .single hchild
    · exact (h.reaches i hi).tail hchild

/-- An object that stands for a value is not inside itself. -/
theorem not_mem {value : V} (h : graph.OnPath path index)
    (hvalue : graph.Denotes index value) : index ∉ path :=
  fun hmem => hvalue.not_cycle (h.reaches index hmem)

end OnPath

/-- What unfolding finds is what the object stands for. -/
theorem denotes_of_unfold {fuel : Nat} {path : List Nat} {index : Nat}
    {value : V} (h : graph.unfold fuel path index = .ok value) :
    graph.Denotes index value := by
  induction fuel generalizing path index value with
  | zero => cases h
  | succ fuel ih =>
      rw [unfold] at h
      split at h
      · cases h
      rename_i hcount
      split at h
      · cases h
      obtain ⟨shape, hshape, h⟩ := bind_eq_ok.mp h
      obtain ⟨values, hvalues, h⟩ := bind_eq_ok.mp h
      cases h
      refine denotes_iff.mpr ⟨shape, values, Nat.not_le.mp hcount, hshape, ?_, rfl⟩
      exact (mapM_eq_ok_iff.mp hvalues).imp fun _ _ => ih

/-- Unfolding finds the value an object stands for, whatever the path, as soon
as the fuel covers the objects that are not on it. -/
theorem unfold_of_denotes {fuel : Nat} {path : List Nat} {index : Nat}
    {value : V} (h : graph.Denotes index value)
    (hpath : graph.OnPath path index)
    (hfuel : graph.count + 1 ≤ fuel + path.length) :
    graph.unfold fuel path index = .ok value := by
  induction fuel generalizing path index value with
  | zero =>
      have := hpath.length_le
      omega
  | succ fuel ih =>
      have hnew := hpath.not_mem h
      obtain ⟨shape, values, hindex, hshape, hvalues, rfl⟩ := denotes_iff.mp h
      rw [unfold, if_neg (Nat.not_le.mpr hindex), if_neg hnew, hshape, ok_bind]
      have hmap : shape.children.mapM (graph.unfold fuel (index :: path)) =
          .ok values := by
        refine mapM_eq_ok_iff.mpr ?_
        obtain ⟨hlength, hget⟩ := List.forall₂_iff_get.mp hvalues
        refine List.forall₂_iff_get.mpr ⟨hlength, fun i h₁ h₂ => ?_⟩
        refine ih (hget i h₁ h₂) (hpath.cons hnew ⟨hindex, shape, hshape, ?_⟩) ?_
        · exact List.get_mem _ _
        · rw [List.length_cons]
          omega
      rw [hmap, ok_bind]
      rfl

/-- Unfolding from an object finds exactly the value it stands for. -/
theorem unfold_eq_ok_iff {index : Nat} {value : V} :
    graph.unfold (graph.count + 1) [] index = .ok value ↔
      graph.Denotes index value :=
  ⟨denotes_of_unfold, fun h => unfold_of_denotes h (.nil graph index) le_rfl⟩

/-- An object that reaches a cycle is not unfolded. -/
theorem unfold_of_cycle {i j : Nat} (hreach : ReflTransGen graph.Child i j)
    (hcycle : TransGen graph.Child j j) :
    ∃ e, graph.unfold (graph.count + 1) [] i = .error e := by
  cases h : graph.unfold (graph.count + 1) [] i with
  | error e => exact ⟨e, rfl⟩
  | ok value =>
      exact absurd hcycle ((unfold_eq_ok_iff.mp h).not_reaches_cycle hreach)

/-- With that fuel, unfolding fails in no other way than reading an object or
following a reference does. -/
theorem fault_of_unfold {P : Fault ε → Prop} (hrange : P (.error graph.outOfRange))
    (hrecursive : P (.error graph.recursive))
    (hshape : ∀ i < graph.count, ∀ e, graph.shape i = .error e → P e)
    {fuel : Nat} {path : List Nat} {index : Nat} {e : Fault ε}
    (hpath : graph.OnPath path index)
    (hfuel : graph.count + 1 ≤ fuel + path.length)
    (h : graph.unfold fuel path index = .error e) : P e := by
  induction fuel generalizing path index with
  | zero =>
      have := hpath.length_le
      omega
  | succ fuel ih =>
      rw [unfold] at h
      split at h
      · cases h
        exact hrange
      rename_i hcount
      have hindex := Nat.not_le.mp hcount
      split at h
      · cases h
        exact hrecursive
      rename_i hnew
      cases hread : graph.shape index with
      | error f =>
          rw [hread] at h
          cases h
          exact hshape index hindex _ hread
      | ok shape =>
          rw [hread, ok_bind] at h
          cases hvalues :
              shape.children.mapM (graph.unfold fuel (index :: path)) with
          | ok values =>
              rw [hvalues] at h
              cases h
          | error f =>
              rw [hvalues] at h
              cases h
              obtain ⟨child, hmem, hchild⟩ := exists_of_mapM_eq_error hvalues
              refine ih (hpath.cons hnew ⟨hindex, shape, hread, hmem⟩) ?_ hchild
              rw [List.length_cons]
              omega

/-! ## The cache -/

/-- What is known of a decoder's memory on a path: its entries are the values
of their objects, and its marks are the path. -/
structure Sound (graph : ObjectGraph ε V) (path : List Nat) (memo : Memo V) : Prop where
  cache : ∀ i value, memo.cache i = some value → graph.Denotes i value
  active : ∀ i, memo.active i = true ↔ i ∈ path

namespace Sound

variable {path : List Nat} {index : Nat} {memo : Memo V}

theorem empty (graph : ObjectGraph ε V) : graph.Sound [] Memo.empty where
  cache := by
    intro i value h
    cases h
  active := by simp [Memo.empty]

theorem enter (h : graph.Sound path memo) :
    graph.Sound (index :: path) (memo.enter index) where
  cache := h.cache
  active := by
    intro i
    by_cases hi : i = index
    · simp [Memo.enter, hi]
    · simp [Memo.enter, hi, h.active]

theorem leave (h : graph.Sound (index :: path) memo) (hnew : index ∉ path) :
    graph.Sound path (memo.leave index) where
  cache := h.cache
  active := by
    intro i
    by_cases hi : i = index
    · simp [Memo.leave, hi, hnew]
    · simp [Memo.leave, hi, h.active]

theorem store {value : V} (h : graph.Sound path memo)
    (hvalue : graph.Denotes index value) :
    graph.Sound path (memo.store index value) where
  cache := by
    intro i other hi
    by_cases hindex : i = index
    · subst hindex
      simp only [Memo.store, Function.update_self, Option.some.injEq] at hi
      exact hi ▸ hvalue
    · simp only [Memo.store, Function.update_of_ne hindex] at hi
      exact h.cache i other hi
  active := h.active

end Sound

/-- The children of an object, decoded one after the other. -/
private theorem run_mapM_visit {fuel : Nat} {path : List Nat}
    (hvisit : ∀ (child : Nat) (memo : Memo V), graph.OnPath path child →
      graph.Sound path memo →
      ∃ next, graph.Sound path next ∧ (graph.visit fuel child).run memo =
        (graph.unfold fuel path child, next))
    (children : List Nat) (hchildren : ∀ c ∈ children, graph.OnPath path c)
    (memo : Memo V) (hmemo : graph.Sound path memo) :
    ∃ next, graph.Sound path next ∧
      (children.mapM (graph.visit fuel)).run memo =
        (children.mapM (graph.unfold fuel path), next) := by
  induction children generalizing memo with
  | nil => exact ⟨memo, hmemo, rfl⟩
  | cons child rest ih =>
      obtain ⟨middle, hmiddle, hrun⟩ :=
        hvisit child memo (hchildren child (by simp)) hmemo
      rw [List.mapM_cons, List.mapM_cons]
      cases hvalue : graph.unfold fuel path child with
      | error e =>
          rw [hvalue] at hrun
          exact ⟨middle, hmiddle, Action.run_bind_error hrun⟩
      | ok value =>
          rw [hvalue] at hrun
          obtain ⟨last, hlast, hrest⟩ :=
            ih (fun c hc => hchildren c (by simp [hc])) middle hmiddle
          refine ⟨last, hlast, ?_⟩
          rw [Action.run_bind_ok hrun, ok_bind]
          cases hvalues : rest.mapM (graph.unfold fuel path) with
          | error e =>
              rw [hvalues] at hrest
              exact Action.run_bind_error hrest
          | ok values =>
              rw [hvalues] at hrest
              rw [Action.run_bind_ok hrest]
              rfl

/-- What `visit` does with one fuel, it does in the body of an object with the
next. -/
private theorem run_expand {fuel : Nat} {path : List Nat} {index : Nat}
    (hvisit : ∀ (child : Nat) (memo : Memo V),
      graph.OnPath (index :: path) child → graph.Sound (index :: path) memo →
      ∃ next, graph.Sound (index :: path) next ∧
        (graph.visit fuel child).run memo =
          (graph.unfold fuel (index :: path) child, next))
    (hpath : graph.OnPath path index) (hindex : index < graph.count)
    (hnew : index ∉ path) (memo : Memo V)
    (hmemo : graph.Sound (index :: path) memo) :
    ∃ next, graph.Sound (index :: path) next ∧
      (graph.expand (graph.visit fuel) index).run memo =
        (graph.unfold (fuel + 1) path index, next) := by
  rw [expand, unfold, if_neg (Nat.not_le.mpr hindex), if_neg hnew]
  cases hshape : graph.shape index with
  | error e => exact ⟨_, hmemo, Action.run_bind_error rfl⟩
  | ok shape =>
      obtain ⟨next, hnext, hrun⟩ := run_mapM_visit hvisit shape.children
        (fun c hc => hpath.cons hnew ⟨hindex, shape, hshape, hc⟩) memo hmemo
      refine ⟨next, hnext, ?_⟩
      rw [Action.run_bind_ok (Action.run_lift _ _), ok_bind]
      cases hvalues :
          shape.children.mapM (graph.unfold fuel (index :: path)) with
      | error e =>
          rw [hvalues] at hrun
          exact Action.run_bind_error hrun
      | ok values =>
          rw [hvalues] at hrun
          rw [Action.run_bind_ok hrun]
          rfl

/-- Decoding with the cache does what unfolding does, and keeps the memory
sound: an object found in the cache stands for its value, so it reaches no
object on the path, and unfolding it here gives that value too. -/
theorem run_visit {fuel : Nat} {path : List Nat} {index : Nat} {memo : Memo V}
    (hpath : graph.OnPath path index) (hmemo : graph.Sound path memo)
    (hfuel : graph.count + 1 ≤ fuel + path.length) :
    ∃ next, graph.Sound path next ∧ (graph.visit fuel index).run memo =
      (graph.unfold fuel path index, next) := by
  induction fuel generalizing path index memo with
  | zero =>
      have := hpath.length_le
      omega
  | succ fuel ih =>
      rw [visit, Action.run_bind_ok (Action.run_get memo)]
      by_cases hcount : graph.count ≤ index
      · exact ⟨memo, hmemo, by simp [unfold, hcount]⟩
      rw [if_neg hcount]
      cases hcache : memo.cache index with
      | some value =>
          refine ⟨memo, hmemo, ?_⟩
          rw [unfold_of_denotes (hmemo.cache index value hcache) hpath hfuel]
          rfl
      | none =>
          simp only
          by_cases hactive : memo.active index = true
          · have hmem := (hmemo.active index).mp hactive
            exact ⟨memo, hmemo, by simp [unfold, hcount, hactive, hmem]⟩
          have hnew : index ∉ path := fun h =>
            hactive ((hmemo.active index).mpr h)
          obtain ⟨next, hnext, hrun⟩ := run_expand
            (fun child m hon hm => ih hon hm (by
              rw [List.length_cons]
              omega))
            hpath (Nat.not_le.mp hcount) hnew _ hmemo.enter
          have hleft := hnext.leave hnew
          rw [if_neg hactive, Action.run_bind_ok (Action.run_modify _ memo),
            Action.run_bind_ok (by rw [Action.run_attempt, hrun]),
            Action.run_bind_ok (Action.run_modify _ next)]
          cases hvalue : graph.unfold (fuel + 1) path index with
          | error e => exact ⟨_, hleft, rfl⟩
          | ok value =>
              exact ⟨_, hleft.store (denotes_of_unfold hvalue), rfl⟩

/-- From an empty memory, decoding with the cache and unfolding have the same
outcome. -/
theorem visit_eq_unfold (index : Nat) :
    ((graph.visit (graph.count + 1) index).run Memo.empty).1 =
      graph.unfold (graph.count + 1) [] index := by
  obtain ⟨next, -, hrun⟩ :=
    run_visit (.nil graph index) (.empty graph) (Nat.le_add_right _ _)
  rw [hrun]

end ObjectGraph

end Ioscpp.Support
