import Carls.Theory.Lookup

/-!
# What Update Does to a Store

`Update` against a store that behaves as a finite map, with an optimizer that
applies one update rule to each vector and its gradient and rejects lists of
different lengths.

The values branch overwrites the store with the request's values. The
gradient branch then looks up the gradients' keys and keeps those the store
has, with their vectors (step one), but hands the optimizer the gradients of
all the keys (step two). The two lists line up only when every key of the
gradient map has a vector. So the branch succeeds exactly then, and writes
back each key's vector updated with its own gradient
(`update_gradients`). As soon as one gradient's key is missing while another
is present, the optimizer receives lists of different lengths and the whole
call fails (`update_partialGradient`), where the design tolerates a partial
failure and drops only the missing key. Had the optimizer not checked the
lengths, it would have paired vectors with the gradients of other keys.

## Main definitions

* `PairwiseApply`: An optimizer that applies a rule pair by pair.
* `applyEach`: A map after each gradient is applied to its own key.
* `partialGradient`: An update with a gradient for a missing key.

## Theorems

* `overwrite_applyEach`: Writing back the rule's results gives `applyEach`.
* `okBackend_pairwiseApply`: The example optimizer applies its rule pair by
  pair.
* `fetchValid_of_mapSemantics`, `applyGradients_of_pairwise`: Steps one and
  two against the contracts.
* `gradientsSection_of_mapSemantics`: The gradient branch.
* `update_gradients`: The whole handler, for a session with an optimizer.
* `update_partialGradient`: A gradient for a missing key fails the call.
-/

namespace Carls

section Rule

variable {V : Type}

/-- `view` after `rule` applies each gradient to the vector of its key; a key
    without a vector stays without one. -/
def applyEach (rule : V → V → V) (view : String → Option V) (gradients : ProtoMap V)
    (k : String) : Option V :=
  match gradients.lookup k with
  | some g => (view k).map fun v => rule v g
  | none => view k

/-- Writing back, over `t`, the rule's results for distinct keys that all have
    a vector in `view`. -/
theorem overwrite_zipWith (rule : V → V → V) (view : String → Option V) :
    ∀ (l : List (Σ _ : String, V)) (t : String → Option V), l.NodupKeys →
      (∀ k ∈ l.keys, (view k).isSome) → ∀ k,
      overwrite t l.keys (List.zipWith rule (l.keys.filterMap view) (l.map Sigma.snd)) k =
        match l.dlookup k with
        | some g => (view k).map fun v => rule v g
        | none => t k
  | [], _, _, _, _ => rfl
  | ⟨k', g⟩ :: l, t, hnd, hs, k => by
    obtain ⟨v, hv⟩ := Option.isSome_iff_exists.mp (hs k' (List.mem_cons_self _ _))
    rw [List.nodupKeys_cons] at hnd
    simp only [List.keys_cons, List.filterMap_cons, hv, List.map_cons, List.zipWith_cons_cons,
      overwrite]
    rw [overwrite_zipWith rule view l _ hnd.2 (fun k hk => hs k (List.mem_cons_of_mem _ hk)) k]
    by_cases e : k = k'
    · -- The key written first is written by no later pair.
      subst e
      simp [List.dlookup_cons_eq, List.dlookup_eq_none.mpr hnd.1, hv]
    · rw [List.dlookup_cons_ne l _ e]
      split <;> simp [Function.update_noteq e]

theorem overwrite_applyEach (rule : V → V → V) (view : String → Option V)
    (gradients : ProtoMap V) (hs : ∀ k ∈ gradients.keys, (view k).isSome) :
    overwrite view gradients.keys
        (List.zipWith rule (gradients.keys.filterMap view) gradients.values) =
      applyEach rule view gradients :=
  funext (overwrite_zipWith rule view gradients.entries view gradients.nodupKeys hs)

theorem applyEach_of_keys_eq_nil (rule : V → V → V) (view : String → Option V)
    {gradients : ProtoMap V} (hg : gradients.keys = []) : applyEach rule view gradients = view :=
  funext fun k => by
    rw [applyEach, AList.lookup_eq_none.mpr (by rw [AList.mem_keys, hg]; exact List.not_mem_nil k)]

end Rule

/-- An optimizer whose `Apply` is `rule` applied to each vector and its
    gradient, and which returns nothing on lists of different lengths. -/
def PairwiseApply {K G σ ω V : Type} (b : Backend K G σ ω V) (rule : V → V → V) : Prop :=
  ∀ opt vs gs, (b.apply opt vs gs).1 = if vs.length = gs.length then List.zipWith rule vs gs else []

theorem okBackend_pairwiseApply : PairwiseApply okBackend (· - ·) := fun _ vs gs => by
  simp only [okBackend, exampleBackend]
  split_ifs <;> rfl

section Steps

variable {K G σ ω V : Type} {b : Backend K G σ ω V} {view : σ → String → Option V}
  {init : String → V} {rule : V → V → V}

/-- Step one against a map: the valid keys are the requested keys the map
    has, with their vectors. -/
theorem fetchValid_of_mapSemantics (hb : MapSemantics b view init) (kb : σ)
    (keys : List String) :
    fetchValid b kb keys =
      if (keys.filter fun k => (view kb k).isSome).isEmpty then .error Status.noValidKeys
      else .ok (keys.filter fun k => (view kb k).isSome, keys.filterMap (view kb)) := by
  have hrs := hb.batchLookup kb keys
  have hlen : (b.batchLookup kb keys).length = keys.length := by
    simpa using congrArg List.length hrs
  simp only [fetchValid, hlen, ne_eq, not_true_eq_false, if_false, collectValid_eq (view kb) hrs]

/-- Step two against a pairwise optimizer, given some vectors. -/
theorem applyGradients_of_pairwise (happly : PairwiseApply b rule) (opt : ω) {vs gs : List V}
    (hv : vs ≠ []) :
    applyGradients b opt vs gs =
      if vs.length = gs.length then .ok (List.zipWith rule vs gs)
      else .error (Status.applyFailed (b.apply opt vs gs).2) := by
  simp only [applyGradients, happly opt vs gs]
  by_cases hl : vs.length = gs.length
  · -- Equal lengths and a first vector give a first result.
    obtain ⟨v, vs, rfl⟩ := List.exists_cons_of_ne_nil hv
    cases gs with
    | nil => simp at hl
    | cons g gs => simp [hl]
  · simp [hl]

/-- The gradient branch, for a session with a store and an optimizer and a
    nonempty gradient map: it succeeds exactly when every gradient's key has
    a vector, and then leaves each key's vector updated with its own
    gradient; otherwise it leaves the store as it was. -/
theorem gradientsSection_of_mapSemantics (hb : MapSemantics b view init)
    (happly : PairwiseApply b rule) {reg : Registry σ ω} {request : UpdateRequest V} {kb : σ}
    (hkb : reg.esMap.lookup request.sessionHandle = some kb)
    (hg : request.sessionHandle ∈ reg.gdMap) (hne : request.gradients.keys ≠ []) :
    ∃ r kb', gradientsSection b reg request = some r ∧
      r.registry.esMap.lookup request.sessionHandle = some kb' ∧
      (r.status.code = .ok ↔ ∀ k ∈ request.gradients.keys, (view kb k).isSome) ∧
      (r.status.code = .ok → view kb' = applyEach rule (view kb) request.gradients) ∧
      (r.status.code ≠ .ok → kb' = kb) := by
  obtain ⟨opt, hopt⟩ := Option.isSome_iff_exists.mp (AList.lookup_isSome.mpr hg)
  simp only [gradientsSection, if_neg (not_not.mpr hg), hkb, Option.some_bind,
    fetchValid_of_mapSemantics hb]
  set keys := request.gradients.keys
  by_cases hall : ∀ k ∈ keys, (view kb k).isSome
  · have hlen : (keys.filterMap (view kb)).length = request.gradients.values.length := by
      rw [ProtoMap.length_values]; exact List.filterMap_length_eq_length.mpr hall
    have hv : keys.filterMap (view kb) ≠ [] := fun e => by
      obtain ⟨k, hk⟩ := List.exists_mem_of_ne_nil _ hne
      simpa [List.filterMap_eq_nil_iff.mp e k hk] using hall k hk
    rw [List.filter_eq_self.mpr hall, if_neg (by simpa using hne)]
    simp only [hopt, Option.some_bind, applyGradients_of_pairwise happly opt hv, if_pos hlen,
      Option.map_some']
    refine ⟨_, _, rfl, Registry.lookup_setStore_self _ (mem_of_lookup hkb),
      ⟨fun _ => hall, fun _ => rfl⟩, fun _ => ?_, fun h => absurd rfl h⟩
    rw [hb.view_batchUpdate _ _ _ (by simp [hlen]), overwrite_applyEach rule (view kb) _ hall]
  · -- A missing key fails step one if no key is found, and step two otherwise.
    have hfail : ∀ st : Status, st.code ≠ .ok → ∃ (r : Reply Unit σ ω) (kb' : σ),
        some ⟨st, (), reg⟩ = some r ∧
        r.registry.esMap.lookup request.sessionHandle = some kb' ∧
        (r.status.code = .ok ↔ ∀ k ∈ keys, (view kb k).isSome) ∧
        (r.status.code = .ok → view kb' = applyEach rule (view kb) request.gradients) ∧
        (r.status.code ≠ .ok → kb' = kb) := fun st hst =>
      ⟨_, kb, rfl, hkb, iff_of_false hst hall, fun h => absurd h hst, fun _ => rfl⟩
    split_ifs with hnone
    · exact hfail _ (by simp [Status.noValidKeys])
    have hv : keys.filterMap (view kb) ≠ [] := by
      simpa [List.filterMap_eq_nil_iff, Option.isSome_iff_ne_none] using hnone
    have hlen : (keys.filterMap (view kb)).length ≠ request.gradients.values.length := by
      rw [ProtoMap.length_values]; exact mt List.filterMap_length_eq_length.mp hall
    simp only [hopt, Option.some_bind, applyGradients_of_pairwise happly opt hv, if_neg hlen]
    exact hfail _ (by simp [Status.applyFailed])

/-- The values branch against a map: the store is overwritten with the
    request's values, in the map's order. -/
theorem writeValues_of_mapSemantics (hb : MapSemantics b view init) {reg : Registry σ ω}
    {request : UpdateRequest V} {kb : σ} (hkb : reg.esMap.lookup request.sessionHandle = some kb) :
    ∃ reg₁ kb₁, writeValues b reg request = some reg₁ ∧
      reg₁.esMap.lookup request.sessionHandle = some kb₁ ∧ reg₁.gdMap = reg.gdMap ∧
      view kb₁ = overwrite (view kb) request.values.keys request.values.values := by
  unfold writeValues
  split_ifs with hv
  · exact ⟨reg, kb, rfl, hkb, rfl, by rw [hv]; rfl⟩
  · simp only [valuesSection, hkb, Option.map_some']
    exact ⟨_, _, rfl, Registry.lookup_setStore_self _ (mem_of_lookup hkb), rfl,
      hb.view_batchUpdate _ _ _ (ProtoMap.length_values _).symm⟩

/-- The gradient branch, skipped on an empty map, in the same terms as
    `gradientsSection_of_mapSemantics`. -/
theorem writeGradients_of_mapSemantics (hb : MapSemantics b view init)
    (happly : PairwiseApply b rule) {reg : Registry σ ω} {request : UpdateRequest V} {kb : σ}
    (hkb : reg.esMap.lookup request.sessionHandle = some kb)
    (hg : request.sessionHandle ∈ reg.gdMap) :
    ∃ r kb', writeGradients b reg request = some r ∧
      r.registry.esMap.lookup request.sessionHandle = some kb' ∧
      (r.status.code = .ok ↔ ∀ k ∈ request.gradients.keys, (view kb k).isSome) ∧
      (r.status.code = .ok → view kb' = applyEach rule (view kb) request.gradients) ∧
      (r.status.code ≠ .ok → kb' = kb) := by
  unfold writeGradients
  split_ifs with hne
  · exact ⟨_, kb, rfl, hkb, by simp [hne], fun _ => (applyEach_of_keys_eq_nil rule _ hne).symm,
      fun h => absurd rfl h⟩
  · exact gradientsSection_of_mapSemantics hb happly hkb hg hne

end Steps

/-- `Update` on a nonempty handle whose start succeeds and leaves it an
    optimizer, with values or gradients, and `kb` the session's store once
    started. The values are written over the store first, which gives the
    map `S1 = overwrite (view kb) …`. The call then succeeds exactly when
    every key of the gradient map has a vector in `S1`, and leaves as the
    session's store `S1` with each of those vectors updated by the rule with
    its own gradient; when it fails, it leaves `S1`. -/
theorem update_gradients {K G σ ω V : Type} (b : Backend K G σ ω V)
    (view : σ → String → Option V) (init : String → V) (rule : V → V → V)
    (hb : MapSemantics b view init) (happly : PairwiseApply b rule) (reg : Registry σ ω)
    {request : UpdateRequest V} {kb : σ} (hh : request.sessionHandle ≠ "")
    (hne : ¬(request.values.keys = [] ∧ request.gradients.keys = []))
    (hok : (startSessionIfNecessary b reg request.sessionHandle).1.code = .ok)
    (hkb : (startSessionIfNecessary b reg request.sessionHandle).2.esMap.lookup
      request.sessionHandle = some kb)
    (hg : request.sessionHandle ∈ (startSessionIfNecessary b reg request.sessionHandle).2.gdMap) :
    ∃ r kb', update b reg request = some r ∧
      r.registry.esMap.lookup request.sessionHandle = some kb' ∧
      (r.status.code = .ok ↔ ∀ k ∈ request.gradients.keys,
        (overwrite (view kb) request.values.keys request.values.values k).isSome) ∧
      (r.status.code = .ok → view kb' =
        applyEach rule (overwrite (view kb) request.values.keys request.values.values)
          request.gradients) ∧
      (r.status.code ≠ .ok →
        view kb' = overwrite (view kb) request.values.keys request.values.values) := by
  simp only [update, if_neg hh, if_neg hne, if_pos hok]
  obtain ⟨reg₁, kb₁, hw, hkb₁, hgd, hv⟩ := writeValues_of_mapSemantics hb hkb
  obtain ⟨r, kb', hr, hkb', hst, hup, hfail⟩ :=
    writeGradients_of_mapSemantics hb happly hkb₁ (by rw [hgd]; exact hg)
  rw [← hv]
  exact ⟨r, kb', by rw [hw, Option.some_bind, hr], hkb', hst, hup, fun h => by rw [hfail h]⟩

/-- The scenario of the gradient tests, in one dimension: a lookup with
    update creates three zero vectors, one gradient per key is applied, and
    a pure lookup reads each vector minus its own gradient. -/
example :
    (do
      let r₁ ← lookup (exampleBackend fun _ _ => some ()) Registry.empty
        ⟨"emb", ["first", "second", "third"], true⟩
      let r₂ ← update (exampleBackend fun _ _ => some ()) r₁.registry
        ⟨"emb", ∅, (((∅ : ProtoMap Int).insert "first" 1).insert "second" 3).insert "third" 5⟩
      let r₃ ← lookup (exampleBackend fun _ _ => some ()) r₂.registry
        ⟨"emb", ["first", "second", "third"], false⟩
      pure (["first", "second", "third"].map r₃.response.embeddingTable.lookup)) =
    some [some (-1), some (-3), some (-5)] := by
  decide

/-- An update of session `emb` that writes a vector for `first` and sends
    gradients for `first` and for `second`, which has no vector. -/
def partialGradient : UpdateRequest Int :=
  ⟨"emb", (∅ : ProtoMap Int).insert "first" 1,
    ((∅ : ProtoMap Int).insert "first" 1).insert "second" 1⟩

/-- On a fresh service, `partialGradient` starts a session with an
    optimizer and writes a vector for `first`, a key of its gradient map,
    and yet fails in step two: the optimizer receives one vector and two
    gradients. -/
theorem update_partialGradient :
    "emb" ∈ (startSessionIfNecessary (exampleBackend fun _ _ => some ()) Registry.empty
      "emb").2.gdMap ∧
    "first" ∈ partialGradient.gradients ∧
    (overwrite (fun _ => none) partialGradient.values.keys partialGradient.values.values
      "first").isSome ∧
    (update (exampleBackend fun _ _ => some ()) Registry.empty partialGradient).map Reply.status =
      some (Status.applyFailed "Inconsistent size of variables and gradients.") := by
  decide

end Carls
