import Carls.Theory.Failure

/-!
# What Lookup Returns

`Lookup` against a store that behaves as a finite map, in the sense of
`MapSemantics`.

The handler sends the requested keys to the store as one batch and gets back
one result per key, a vector or an error text; after the size check, the loop
of lines 80–86 writes each vector under its own key and skips each error.
When every result is the lookup of its own key, that loop builds exactly the
restriction of the map to the requested keys (`lookup_scatter_of_getLeft`):
a key the map has is never dropped, a key it lacks never appears, and a key
requested twice is written twice with the same vector. Nothing in the loop
depends on the order of the keys or on their being distinct.

A pure lookup reads the store and leaves the registry as the start left it.
A lookup with update first creates the missing keys, so it returns the table
of the map after creation, which has every requested key, and leaves that map
as the new state of the session's store.

## Theorems

* `lookup_scatter_of_getLeft`: The table is the map restricted to the keys.
* `lookupReply_of_getLeft`: The size check passes, and the table is that
  restriction.
* `lookupSection_read`, `lookupSection_create`: The section, without and
  with update.
* `lookup_table`: The whole handler, for a session that starts.
-/

namespace Carls

section Table

variable {V : Type}

/-- Starting from the empty table, the loop of lines 80–86 builds `f`
    restricted to the requested keys. -/
theorem lookup_scatter_of_getLeft (f : String → Option V) {keys : List String}
    {rs : List (V ⊕ String)} (hrs : rs.map Sum.getLeft? = keys.map f) (k : String) :
    (scatter keys rs ∅).lookup k = if k ∈ keys then f k else none := by
  rw [lookup_scatter f ∅ k hrs]
  by_cases hk : k ∈ keys <;> cases f k <;> simp [hk]

variable {σ ω : Type}

theorem lookupReply_of_getLeft (f : String → Option V) {keys : List String}
    {rs : List (V ⊕ String)} (reg : Registry σ ω) (hrs : rs.map Sum.getLeft? = keys.map f) :
    (lookupReply keys rs reg).status = Status.OK ∧ (lookupReply keys rs reg).registry = reg ∧
    ∀ k, (lookupReply keys rs reg).response.embeddingTable.lookup k =
      if k ∈ keys then f k else none := by
  have hlen : rs.length = keys.length := by simpa using congrArg List.length hrs
  rw [lookupReply, if_neg (not_not.mpr hlen)]
  exact ⟨rfl, rfl, lookup_scatter_of_getLeft f hrs⟩

end Table

section Section

variable {K G σ ω V : Type} {b : Backend K G σ ω V} {view : σ → String → Option V}
  {init : String → V}

/-- A pure lookup answers with the store's map restricted to the keys and
    changes nothing. -/
theorem lookupSection_read (hb : MapSemantics b view init) {reg : Registry σ ω} {h : String}
    {kb : σ} (hkb : reg.esMap.lookup h = some kb) (keys : List String) :
    ∃ r, lookupSection b reg ⟨h, keys, false⟩ = some r ∧ r.status = Status.OK ∧
      r.registry = reg ∧
      ∀ k, r.response.embeddingTable.lookup k = if k ∈ keys then view kb k else none := by
  simp only [lookupSection, hkb, Option.map_some', Option.some.injEq, exists_eq_left']
  exact lookupReply_of_getLeft (view kb) reg (hb.batchLookup kb keys)

/-- A lookup with update leaves the store with every requested key created,
    and answers with that store's map restricted to the keys. -/
theorem lookupSection_create (hb : MapSemantics b view init) {reg : Registry σ ω} {h : String}
    {kb : σ} (hkb : reg.esMap.lookup h = some kb) (keys : List String) :
    ∃ r kb', lookupSection b reg ⟨h, keys, true⟩ = some r ∧ r.status = Status.OK ∧
      r.registry = reg.setStore h kb' ∧ view kb' = withCreated (view kb) init keys ∧
      ∀ k, r.response.embeddingTable.lookup k = if k ∈ keys then view kb' k else none := by
  simp only [lookupSection, hkb, Option.map_some', Option.some.injEq, if_true]
  obtain ⟨hst, hreg, htable⟩ := lookupReply_of_getLeft _
    (reg.setStore h (b.batchLookupWithUpdate kb keys).2) (hb.batchLookupWithUpdate kb keys)
  exact ⟨_, _, rfl, hst, hreg, hb.view_batchLookupWithUpdate kb keys, htable⟩

end Section

/-- `Lookup` on a nonempty handle whose start succeeds and nonempty keys, with
    `kb` the session's store once started: without update, it answers `OK`
    with the store's map restricted to the keys and leaves the registry as
    the start left it; with update, it answers `OK`, leaves as the session's
    store one whose map is the old one with every missing requested key
    created from `init`, and answers with that map restricted to the keys. -/
theorem lookup_table {K G σ ω V : Type} (b : Backend K G σ ω V) (view : σ → String → Option V)
    (init : String → V) (hb : MapSemantics b view init) (reg : Registry σ ω) {h : String}
    {keys : List String} {kb : σ} (hh : h ≠ "") (hk : keys ≠ [])
    (hok : (startSessionIfNecessary b reg h).1.code = .ok)
    (hkb : (startSessionIfNecessary b reg h).2.esMap.lookup h = some kb) :
    (∃ r, lookup b reg ⟨h, keys, false⟩ = some r ∧ r.status = Status.OK ∧
      r.registry = (startSessionIfNecessary b reg h).2 ∧
      ∀ k, r.response.embeddingTable.lookup k = if k ∈ keys then view kb k else none) ∧
    (∃ r kb', lookup b reg ⟨h, keys, true⟩ = some r ∧ r.status = Status.OK ∧
      r.registry = (startSessionIfNecessary b reg h).2.setStore h kb' ∧
      view kb' = withCreated (view kb) init keys ∧
      ∀ k, r.response.embeddingTable.lookup k = if k ∈ keys then view kb' k else none) := by
  -- Past the argument checks and the start, `Lookup` is its section.
  have hsec : ∀ update, lookup b reg ⟨h, keys, update⟩ =
      lookupSection b (startSessionIfNecessary b reg h).2 ⟨h, keys, update⟩ := fun _ => by
    simp only [lookup, if_neg hh, if_neg hk, if_pos hok]
  rw [hsec, hsec]
  exact ⟨lookupSection_read hb hkb keys, lookupSection_create hb hkb keys⟩

/-- A repeated key and a key the store lacks, on a fresh service. -/
theorem lookup_table_emb :
    MapSemantics (exampleBackend fun _ _ => some ()) id (fun _ => 0) ∧
    "emb" ≠ "" ∧ ["first", "first", "second"] ≠ [] ∧
    (startSessionIfNecessary (exampleBackend fun _ _ => some ()) Registry.empty "emb").1.code =
      .ok ∧
    (startSessionIfNecessary (exampleBackend fun _ _ => some ()) Registry.empty "emb").2.esMap.lookup
      "emb" = some (fun _ => none) ∧
    (∃ r, lookup (exampleBackend fun _ _ => some ()) Registry.empty
        ⟨"emb", ["first", "first", "second"], false⟩ = some r ∧ r.status = Status.OK ∧
      r.registry =
        (startSessionIfNecessary (exampleBackend fun _ _ => some ()) Registry.empty "emb").2 ∧
      ∀ k, r.response.embeddingTable.lookup k =
        if k ∈ ["first", "first", "second"] then id (fun _ => none) k else none) ∧
    (∃ r kb', lookup (exampleBackend fun _ _ => some ()) Registry.empty
        ⟨"emb", ["first", "first", "second"], true⟩ = some r ∧ r.status = Status.OK ∧
      r.registry =
        (startSessionIfNecessary (exampleBackend fun _ _ => some ()) Registry.empty
          "emb").2.setStore "emb" kb' ∧
      id kb' = withCreated (id fun _ => none) (fun _ => 0) ["first", "first", "second"] ∧
      ∀ k, r.response.embeddingTable.lookup k =
        if k ∈ ["first", "first", "second"] then id kb' k else none) :=
  have hb : MapSemantics (exampleBackend fun _ _ => some ()) id (fun _ => 0) :=
    mapStore_mapSemantics _ _ rfl rfl rfl
  have hok : (startSessionIfNecessary (exampleBackend fun _ _ => some ()) Registry.empty
      "emb").1.code = .ok := rfl
  have hkb : (startSessionIfNecessary (exampleBackend fun _ _ => some ()) Registry.empty
      "emb").2.esMap.lookup "emb" = some (fun _ => none) := rfl
  ⟨hb, by decide, by decide, hok, hkb,
    lookup_table _ id (fun _ => 0) hb Registry.empty (by decide) (by decide) hok hkb⟩

end Carls
