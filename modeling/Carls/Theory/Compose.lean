import Carls.Theory.Gradient
import Carls.Theory.Sessions

/-!
# Requests One After Another

What a request sees of the requests served before it on the same session.

Every handler starts its session first, and a start that has run once finds
nothing left to build: it answers as it did the first time and changes
nothing, however the session's store was written since
(`startSessionIfNecessary_of_storeWrite`). Three consequences are proved
here, each about two requests served in a row.

* An explicit `StartSession` before a request on its session is redundant:
  the request gets the same reply and leaves the same registry with or
  without it (`serve_after_startSession`). The handlers start sessions
  lazily, and this is the fact that makes that safe.
* A pure lookup after an `Update` reads back what the update left: the
  request's values written over the old map, and, when the gradient branch
  succeeds, each gradient applied to its key's vector (`lookup_after_update`).
  Through `Lookup`, this is the whole observable effect of `Update`.
* A lookup with update is idempotent: repeated, with or without update, it
  returns the same table and leaves the session's map as it was
  (`lookup_repeat`).

## Theorems

* `startSessionIfNecessary_of_storeWrite`: A second start changes nothing.
* `serve_startSessionIfNecessary`: A request after a start of its own session.
* `lookup_of_started`: A lookup past its checks is its section.
* `serve_after_startSession`: An explicit start is redundant.
* `lookup_after_update`: Lookup reads back what Update wrote.
* `withCreated_withCreated`: Creating keys twice creates them once.
* `lookup_repeat`: A repeated lookup with update.
-/

namespace Carls

section Restart

variable {K G σ ω V : Type} {b : Backend K G σ ω V}

/-- Once `h` has been started, a start of `h` after any writes to its store
    answers as the first one did and changes nothing. -/
theorem startSessionIfNecessary_of_storeWrite {reg reg' : Registry σ ω} {h : String}
    (hw : (startSessionIfNecessary b reg h).2.StoreWrite h reg') :
    startSessionIfNecessary b reg' h = ((startSessionIfNecessary b reg h).1, reg') := by
  have hs := (settled_startSessionIfNecessary b reg h).congr (hw.mem_esMap h)
    (by rw [hw.gdMap_eq])
  have hfix := startSessionIfNecessary_of_settled hs
  refine Prod.ext ?_ hfix
  rw [startSessionIfNecessary_fst, hfix, startSessionIfNecessary_fst b reg h]
  exact startStatus_congr b (hw.mem_esMap h) (by rw [hw.gdMap_eq])

/-- A request that gets past its checks with `h` gets the same reply, and
    leaves the same registry, whether or not `h` was started just before. -/
theorem serve_startSessionIfNecessary (reg : Registry σ ω) {rq : Request K G V} {h : String}
    (hh : (rq.entry b).handle = some h) :
    serve b (startSessionIfNecessary b reg h).2 rq = serve b reg rq := by
  obtain ⟨rest, fail, -, he⟩ := serve_of_entry hh
  rw [he, he, startSessionIfNecessary_of_storeWrite (.refl h _)]

theorem startSession_registry_eq (reg : Registry σ ω) {request : StartSessionRequest K G}
    (hn : request.name ≠ "") : (startSession b reg request).registry =
      (startSessionIfNecessary b reg (b.serializeAsString request)).2 := by
  simp only [startSession, if_neg hn]
  split_ifs <;> rfl

/-- Past its checks and a start that succeeds, `Lookup` is its section. -/
theorem lookup_of_started {reg : Registry σ ω} {h : String} {keys : List String}
    (hh : h ≠ "") (hk : keys ≠ []) (hok : (startSessionIfNecessary b reg h).1.code = .ok)
    (update : Bool) :
    lookup b reg ⟨h, keys, update⟩ =
      lookupSection b (startSessionIfNecessary b reg h).2 ⟨h, keys, update⟩ := by
  simp only [lookup, if_neg hh, if_neg hk, if_pos hok]

end Restart

/-- A `StartSession` before a request on the session it starts is redundant:
    the request gets the same reply and leaves the same registry as when
    served on the registry before the start. -/
theorem serve_after_startSession {K G σ ω V : Type} (b : Backend K G σ ω V) (reg : Registry σ ω)
    {start : StartSessionRequest K G} {rq : Request K G V} (hn : start.name ≠ "")
    (hh : (rq.entry b).handle = some (b.serializeAsString start)) :
    serve b (startSession b reg start).registry rq = serve b reg rq := by
  rw [startSession_registry_eq reg hn, serve_startSessionIfNecessary reg hh]

/-- The `StartSession` of the tests, then a lookup on the session it starts. -/
theorem serve_after_startSession_emb :
    embRequest.name ≠ "" ∧
    (Request.entry okBackend (.lookup ⟨"emb", ["first"], true⟩)).handle =
      some (okBackend.serializeAsString embRequest) ∧
    serve okBackend (startSession okBackend Registry.empty embRequest).registry
        (.lookup ⟨"emb", ["first"], true⟩) =
      serve okBackend Registry.empty (.lookup ⟨"emb", ["first"], true⟩) :=
  ⟨by decide, rfl, serve_after_startSession okBackend Registry.empty (by decide) rfl⟩

/-- `Update` on a nonempty handle whose start succeeds and leaves it an
    optimizer, with values or gradients, and `kb` the session's store once
    started; `S1` is the map after the values are written over it. The
    update succeeds exactly when every key of the gradient map has a vector
    in `S1`, and a pure lookup of any keys afterwards answers `OK`, changes
    nothing, and returns for each requested key its vector in `S1`, updated
    by the rule with the key's gradient if the update succeeded. -/
theorem lookup_after_update {K G σ ω V : Type} (b : Backend K G σ ω V)
    (view : σ → String → Option V) (init : String → V) (rule : V → V → V)
    (hb : MapSemantics b view init) (happly : PairwiseApply b rule) (reg : Registry σ ω)
    {request : UpdateRequest V} {kb : σ} (hh : request.sessionHandle ≠ "")
    (hne : ¬(request.values.keys = [] ∧ request.gradients.keys = []))
    (hok : (startSessionIfNecessary b reg request.sessionHandle).1.code = .ok)
    (hkb : (startSessionIfNecessary b reg request.sessionHandle).2.esMap.lookup
      request.sessionHandle = some kb)
    (hg : request.sessionHandle ∈ (startSessionIfNecessary b reg request.sessionHandle).2.gdMap) :
    ∃ r, update b reg request = some r ∧
      (r.status.code = .ok ↔ ∀ k ∈ request.gradients.keys,
        (overwrite (view kb) request.values.keys request.values.values k).isSome) ∧
      ∀ keys, keys ≠ [] → ∃ r', lookup b r.registry ⟨request.sessionHandle, keys, false⟩ = some r' ∧
        r'.status = Status.OK ∧ r'.registry = r.registry ∧
        ∀ k, r'.response.embeddingTable.lookup k = if k ∈ keys then
          (if r.status.code = .ok then
            applyEach rule (overwrite (view kb) request.values.keys request.values.values)
              request.gradients
          else overwrite (view kb) request.values.keys request.values.values) k
          else none := by
  obtain ⟨r, kb', hr, hkb', hst, hup, hfail⟩ :=
    update_gradients b view init rule hb happly reg hh hne hok hkb hg
  refine ⟨r, hr, hst, fun keys hk => ?_⟩
  -- The update wrote only the session's store, so the lookup's start is settled.
  have hserve : serve b reg (.update request) = some (r.mapResponse fun _ => .update) := by
    simp [serve, hr]
  have hw : (startSessionIfNecessary b reg request.sessionHandle).2.StoreWrite
      request.sessionHandle r.registry :=
    (serve_registry_entry hserve).1 _ (by simp [Request.entry, hh, hne, Stage.handle])
  have hfix := startSessionIfNecessary_of_storeWrite hw
  rw [lookup_of_started hh hk (by rw [hfix]; exact hok), hfix]
  obtain ⟨r', hr', hst', hreg', htable⟩ := lookupSection_read hb hkb' keys
  refine ⟨r', hr', hst', hreg', fun k => ?_⟩
  rw [htable]
  split_ifs with hkey hok' <;> first | rfl | rw [hup hok'] | rw [hfail hok']

/-- An update of session `emb` that writes `first` and sends it a gradient. -/
def writeThenStep : UpdateRequest Int :=
  ⟨"emb", (∅ : ProtoMap Int).insert "first" 2, (∅ : ProtoMap Int).insert "first" 1⟩

theorem lookup_after_update_emb :
    MapSemantics okBackend id (fun _ => 0) ∧ PairwiseApply okBackend (· - ·) ∧
    writeThenStep.sessionHandle ≠ "" ∧
    ¬(writeThenStep.values.keys = [] ∧ writeThenStep.gradients.keys = []) ∧
    (startSessionIfNecessary okBackend Registry.empty "emb").1.code = .ok ∧
    (startSessionIfNecessary okBackend Registry.empty "emb").2.esMap.lookup "emb" =
      some (fun _ => none) ∧
    "emb" ∈ (startSessionIfNecessary okBackend Registry.empty "emb").2.gdMap ∧
    ∃ r, update okBackend Registry.empty writeThenStep = some r ∧
      (r.status.code = .ok ↔ ∀ k ∈ writeThenStep.gradients.keys,
        (overwrite (id fun _ => none) writeThenStep.values.keys writeThenStep.values.values
          k).isSome) ∧
      ∀ keys, keys ≠ [] → ∃ r', lookup okBackend r.registry ⟨"emb", keys, false⟩ = some r' ∧
        r'.status = Status.OK ∧ r'.registry = r.registry ∧
        ∀ k, r'.response.embeddingTable.lookup k = if k ∈ keys then
          (if r.status.code = .ok then
            applyEach (· - ·) (overwrite (id fun _ => none) writeThenStep.values.keys
              writeThenStep.values.values) writeThenStep.gradients
          else overwrite (id fun _ => none) writeThenStep.values.keys
            writeThenStep.values.values) k
          else none :=
  have hok : (startSessionIfNecessary okBackend Registry.empty "emb").1.code = .ok := rfl
  have hkb : (startSessionIfNecessary okBackend Registry.empty "emb").2.esMap.lookup "emb" =
      some (fun _ => none) := rfl
  have hg : "emb" ∈ (startSessionIfNecessary okBackend Registry.empty "emb").2.gdMap := by
    decide
  ⟨okBackend_mapSemantics, okBackend_pairwiseApply, by decide, by decide, hok, hkb, hg,
    lookup_after_update okBackend id (fun _ => 0) (· - ·) okBackend_mapSemantics
      okBackend_pairwiseApply Registry.empty (by decide) (by decide) hok hkb hg⟩

theorem withCreated_withCreated {V : Type} (view : String → Option V) (init : String → V)
    (keys : List String) :
    withCreated (withCreated view init keys) init keys = withCreated view init keys := by
  funext k
  by_cases hk : k ∈ keys <;> simp [withCreated, hk]

/-- A lookup with update, on a nonempty handle whose start succeeds and
    nonempty keys, is idempotent: a lookup of the same keys after it, with or
    without update, answers `OK` with the same table, and leaves as the
    session's store one with the same map. -/
theorem lookup_repeat {K G σ ω V : Type} (b : Backend K G σ ω V) (view : σ → String → Option V)
    (init : String → V) (hb : MapSemantics b view init) (reg : Registry σ ω) {h : String}
    {keys : List String} (hh : h ≠ "") (hk : keys ≠ [])
    (hok : (startSessionIfNecessary b reg h).1.code = .ok) :
    ∃ r kb, lookup b reg ⟨h, keys, true⟩ = some r ∧ r.status = Status.OK ∧
      r.registry.esMap.lookup h = some kb ∧
      ∀ update, ∃ r' kb', lookup b r.registry ⟨h, keys, update⟩ = some r' ∧
        r'.status = Status.OK ∧ r'.registry.esMap.lookup h = some kb' ∧ view kb' = view kb ∧
        ∀ k, r'.response.embeddingTable.lookup k = r.response.embeddingTable.lookup k := by
  obtain ⟨kb₀, hkb₀⟩ := Option.isSome_iff_exists.mp
    (AList.lookup_isSome.mpr (mem_of_startSessionIfNecessary_ok hok).1)
  obtain ⟨r, kb, hr, hst, hreg, hview, htable⟩ := lookupSection_create hb hkb₀ keys
  have hkb : r.registry.esMap.lookup h = some kb := by
    rw [hreg]; exact Registry.lookup_setStore_self kb (mem_of_lookup hkb₀)
  refine ⟨r, kb, by rw [lookup_of_started hh hk hok]; exact hr, hst, hkb, fun update => ?_⟩
  -- The first lookup started the session and wrote only its store.
  have hfix := startSessionIfNecessary_of_storeWrite
    (hreg ▸ Registry.storeWrite_setStore (startSessionIfNecessary b reg h).2 h kb)
  rw [lookup_of_started hh hk (by rw [hfix]; exact hok), hfix]
  cases update with
  | false =>
    obtain ⟨r', hr', hst', hreg', htable'⟩ := lookupSection_read hb hkb keys
    exact ⟨r', kb, hr', hst', hreg' ▸ hkb, rfl, fun k => by rw [htable', htable]⟩
  | true =>
    obtain ⟨r', kb', hr', hst', hreg', hview', htable'⟩ := lookupSection_create hb hkb keys
    -- Creating the same keys again creates nothing.
    have hsame : view kb' = view kb := by
      rw [hview', hview, withCreated_withCreated]
    refine ⟨r', kb', hr', hst', ?_, hsame, fun k => by rw [htable', htable, hsame]⟩
    rw [hreg']; exact Registry.lookup_setStore_self kb' (mem_of_lookup hkb)

theorem lookup_repeat_emb :
    MapSemantics okBackend id (fun _ => 0) ∧ "emb" ≠ "" ∧ ["first", "second"] ≠ [] ∧
    (startSessionIfNecessary okBackend Registry.empty "emb").1.code = .ok ∧
    ∃ r kb, lookup okBackend Registry.empty ⟨"emb", ["first", "second"], true⟩ = some r ∧
      r.status = Status.OK ∧ r.registry.esMap.lookup "emb" = some kb ∧
      ∀ update, ∃ r' kb',
        lookup okBackend r.registry ⟨"emb", ["first", "second"], update⟩ = some r' ∧
        r'.status = Status.OK ∧ r'.registry.esMap.lookup "emb" = some kb' ∧ id kb' = id kb ∧
        ∀ k, r'.response.embeddingTable.lookup k = r.response.embeddingTable.lookup k :=
  have hok : (startSessionIfNecessary okBackend Registry.empty "emb").1.code = .ok := rfl
  ⟨okBackend_mapSemantics, by decide, by decide, hok,
    lookup_repeat okBackend id (fun _ => 0) okBackend_mapSemantics Registry.empty (by decide)
      (by decide) hok⟩

end Carls
