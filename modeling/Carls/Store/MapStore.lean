import Carls.Service.Handlers

/-!
# Knowledge Banks That Behave as Finite Maps

The service treats a knowledge bank as an external collaborator and calls
only its three batch methods. This module states what those methods do for a
store that is a finite map from keys to vectors, which is how the design
describes the store: a pure read fails exactly on the absent keys, a read
with update first creates every absent key it is asked for, and a batch
update writes its pairs in order.

`MapSemantics b view init` is that contract for the backend `b`, read
through `view`, an abstraction from a store's state to the map it stands for.
It says nothing about the error text of a failed read, only that there is
one. `mapStore_mapSemantics` shows that the contract can be met, by the
in-memory store `MapStore`, and `exampleBackend` builds a whole backend on it
for the concrete runs of the other modules.

## Main definitions

* `overwrite`: A map after writing pairs in order.
* `withCreated`: A map after creating missing keys.
* `MapSemantics`: The finite-map contract of a store.
* `MapStore.batchLookup`, `MapStore.batchLookupWithUpdate`,
  `MapStore.batchUpdate`: An in-memory store.
* `exampleBackend`: A backend built on `MapStore`.

## Theorems

* `overwrite_of_not_mem`: A key nobody writes keeps its value.
* `overwrite_of_mem`: A written key holds its value, when keys are distinct.
* `mapStore_mapSemantics`, `okBackend_mapSemantics`: The in-memory store
  meets the contract.
-/

namespace Carls

section Contract

variable {V : Type}

/-- `view` after writing `keys` and `values` pairwise, in order. -/
def overwrite (view : String → Option V) : List String → List V → String → Option V
  | k :: keys, v :: values => overwrite (Function.update view k (some v)) keys values
  | _, _ => view

/-- `view` after a lookup with update of `keys`: every requested key that
    was absent now holds `init`. -/
def withCreated (view : String → Option V) (init : String → V) (keys : List String)
    (k : String) : Option V :=
  if k ∈ keys then some ((view k).getD (init k)) else view k

theorem overwrite_of_not_mem (view : String → Option V) {k : String} :
    ∀ {keys : List String} (values : List V), k ∉ keys → overwrite view keys values k = view k
  | [], _, _ => by simp [overwrite]
  | _ :: _, [], _ => by simp [overwrite]
  | k' :: keys, v :: values, hk => by
    rw [List.mem_cons, not_or] at hk
    rw [overwrite, overwrite_of_not_mem _ values hk.2, Function.update_noteq hk.1]

theorem overwrite_of_mem (view : String → Option V) :
    ∀ {keys : List String} {values : List V} {i : Nat} (hi : i < keys.length)
      (hv : i < values.length), keys.Nodup →
      overwrite view keys values (keys.get ⟨i, hi⟩) = some (values.get ⟨i, hv⟩)
  | k :: keys, v :: values, 0, _, _, hnd => by
    rw [List.nodup_cons] at hnd
    simp [overwrite, overwrite_of_not_mem _ values hnd.1]
  | k :: keys, v :: values, i + 1, hi, hv, hnd => by
    rw [List.nodup_cons] at hnd
    simpa [overwrite] using overwrite_of_mem _ (Nat.lt_of_succ_lt_succ hi)
      (Nat.lt_of_succ_lt_succ hv) hnd.2

end Contract

/-- What a store of backend `b` does, read through `view` as a finite map:
    a pure lookup returns a vector exactly for the keys the map has, a lookup
    with update creates the absent keys with `init` and then finds every key,
    and an update of as many keys as values writes the pairs in order. -/
structure MapSemantics {K G σ ω V : Type} (b : Backend K G σ ω V) (view : σ → String → Option V)
    (init : String → V) : Prop where
  batchLookup : ∀ kb keys, (b.batchLookup kb keys).map Sum.getLeft? = keys.map (view kb)
  view_batchLookupWithUpdate : ∀ kb keys,
    view (b.batchLookupWithUpdate kb keys).2 = withCreated (view kb) init keys
  batchLookupWithUpdate : ∀ kb keys,
    (b.batchLookupWithUpdate kb keys).1.map Sum.getLeft? =
      keys.map (view (b.batchLookupWithUpdate kb keys).2)
  view_batchUpdate : ∀ kb keys values, keys.length = values.length →
    view (b.batchUpdate kb keys values) = overwrite (view kb) keys values

namespace MapStore

variable {V : Type}

/-- Modelled from the spec: a pure batch read of an in-memory store, which
    fails on an absent key. -/
def batchLookup (kb : String → Option V) (keys : List String) : List (V ⊕ String) :=
  keys.map fun k => match kb k with
    | some v => .inl v
    | none => .inr ("Data not found for key: " ++ k)

/-- Modelled from the spec: a batch read that first creates each absent key
    with `init`, one key after another. -/
def batchLookupWithUpdate (init : String → V) :
    (String → Option V) → List String → List (V ⊕ String) × (String → Option V)
  | kb, [] => ([], kb)
  | kb, k :: keys =>
    let v := (kb k).getD (init k)
    let rest := batchLookupWithUpdate init (Function.update kb k (some v)) keys
    (.inl v :: rest.1, rest.2)

/-- Modelled from the spec: a batch write, pair by pair. -/
def batchUpdate (kb : String → Option V) (keys : List String) (values : List V) :
    String → Option V :=
  overwrite kb keys values

theorem view_batchLookupWithUpdate (init : String → V) :
    ∀ (kb : String → Option V) (keys : List String),
      (batchLookupWithUpdate init kb keys).2 = withCreated kb init keys
  | kb, [] => by funext k; simp [batchLookupWithUpdate, withCreated]
  | kb, k' :: keys => by
    funext k
    rw [batchLookupWithUpdate, view_batchLookupWithUpdate init _ keys]
    by_cases e : k = k'
    · subst e; simp [withCreated]
    · simp [withCreated, e, Function.update_noteq]

theorem getLeft_batchLookupWithUpdate (init : String → V) :
    ∀ (kb : String → Option V) (keys : List String),
      (batchLookupWithUpdate init kb keys).1.map Sum.getLeft? =
        keys.map (batchLookupWithUpdate init kb keys).2
  | kb, [] => rfl
  | kb, k :: keys => by
    simp only [batchLookupWithUpdate, List.map_cons, Sum.getLeft?_inl,
      getLeft_batchLookupWithUpdate init _ keys, view_batchLookupWithUpdate, withCreated]
    simp

end MapStore

/-- The in-memory store meets the finite-map contract, through the identity. -/
theorem mapStore_mapSemantics {K G ω V : Type} (b : Backend K G (String → Option V) ω V)
    (init : String → V) (hl : b.batchLookup = MapStore.batchLookup)
    (hlu : b.batchLookupWithUpdate = MapStore.batchLookupWithUpdate init)
    (hu : b.batchUpdate = MapStore.batchUpdate) : MapSemantics b id init where
  batchLookup kb keys := by
    rw [hl, MapStore.batchLookup, List.map_map]
    congr 1; funext k
    cases h : kb k <;> simp [h]
  view_batchLookupWithUpdate kb keys := by
    rw [hlu]; exact MapStore.view_batchLookupWithUpdate init kb keys
  batchLookupWithUpdate kb keys := by
    rw [hlu]; exact MapStore.getLeft_batchLookupWithUpdate init kb keys
  view_batchUpdate kb keys values _ := by rw [hu]; rfl

/-- A backend for concrete runs: one-dimensional vectors, a session named by
    its handle with one configuration that asks for an optimizer, zero
    initialization, and as update rule the gradient subtracted from the
    vector (plain SGD at learning rate one). `create` is left open, so that
    a run can choose whether the optimizer can be built. -/
def exampleBackend (create : Int → Unit → Option Unit) :
    Backend Unit Unit (String → Option Int) Unit Int where
  parseFromString h := ⟨h, ⟨1, (), some ()⟩⟩
  serializeAsString r := r.name
  make _ _ := some fun _ => none
  create := create
  batchLookup := MapStore.batchLookup
  batchLookupWithUpdate := MapStore.batchLookupWithUpdate fun _ => 0
  batchUpdate := MapStore.batchUpdate
  apply _ vs gs :=
    if vs.length = gs.length then (List.zipWith (· - ·) vs gs, "")
    else ([], "Inconsistent size of variables and gradients.")

/-- `exampleBackend` with an optimizer factory that always builds. -/
def okBackend : Backend Unit Unit (String → Option Int) Unit Int :=
  exampleBackend fun _ _ => some ()

theorem okBackend_mapSemantics : MapSemantics okBackend id (fun _ => 0) :=
  mapStore_mapSemantics _ _ rfl rfl rfl

end Carls
