import Carls.Service.Registry

/-!
# Lock-Held Sections of Lookup and Update

The parts of `Lookup` and `Update` that run while `map_mu_` is held. Each is
one function from the registry, and each is one atomic step of the concurrent
model in `Concurrent.Threads`; the sequential handlers in `Service.Handlers`
run them one after another.

`Lookup` holds the reader lock from line 67 to its return. `Update` takes the
writer lock twice: once around the values branch (lines 114–115) and once
around the whole gradient branch (lines 133–173). The gradient branch is
split as the source comments split it: `fetchValid` is step one, the lookup
and the loop that keeps the keys whose lookup succeeded; `applyGradients` is
step two; the write-back is step three. Note that step two receives the
vectors of the valid keys only, but the gradients of every requested key.

Each section reaches the store through `es_map_[h]->`, read as a lookup whose
miss is undefined behaviour (`none`), as explained in `Service.Registry`.

## Main definitions

* `Reply`: A status, a response and the registry left behind.
* `scatter`: The loop of lines 80–86 that fills the embedding table.
* `lookupSection`: Lines 67–87.
* `valuesSection`: Lines 104–116.
* `collectValid`: The loop of lines 149–156.
* `fetchValid`, `applyGradients`: Steps one and two of the gradient branch.
* `gradientsSection`: Lines 133–173.

## Theorems

* `gradientsSection_cases`: Everything the gradient branch can do.
* `lookupSection_registry`, `valuesSection_registry`,
  `gradientsSection_registry`: A section changes at most the state of the
  session's own store.
* `isSome_lookupSection`, `isSome_valuesSection`, `isSome_gradientsSection`:
  A section is defined exactly when the session has a store.
-/

namespace Carls

/-- What a handler or a section hands back: the status, the response message
    and the registry it leaves. -/
structure Reply (R σ ω : Type) where
  status : Status
  response : R
  registry : Registry σ ω

namespace Status

/-- Lines 76–77 and 146–147. -/
def inconsistentResult : Status := ⟨.internal, "Inconsistent result returned by BatchLookup()"⟩

/-- Lines 135–137. -/
def optimizerNotCreated : Status :=
  ⟨.internal, "Optimizer is not created, did you forget to add " ++
    "gradient_descent_config in DynamicEmbeddingConfig?"⟩

/-- Line 158. -/
def noValidKeys : Status := ⟨.internal, "No valid keys for gradient update."⟩

/-- Lines 166–168. -/
def applyFailed (errorMsg : String) : Status :=
  ⟨.internal, "Applying gradient update returned error: " ++ errorMsg⟩

end Status

/-- The loop of lines 80–86: each key whose result holds a vector is written
    to the table, a later occurrence of a key overwriting an earlier one. The
    two lists have the same length, checked at line 75. -/
def scatter {V : Type} : List String → List (V ⊕ String) → ProtoMap V → ProtoMap V
  | k :: keys, .inl v :: rs, table => scatter keys rs (table.insert k v)
  | _ :: keys, .inr _ :: rs, table => scatter keys rs table
  | _, _, table => table

/-- The loop of lines 149–156: the keys whose lookup returned a vector, and
    those vectors, both in request order. -/
def collectValid {V : Type} : List String → List (V ⊕ String) → List String × List V
  | k :: keys, .inl v :: rs => (k :: (collectValid keys rs).1, v :: (collectValid keys rs).2)
  | _ :: keys, .inr _ :: rs => collectValid keys rs
  | _, _ => ([], [])

section Loops

variable {V : Type}

/-- When every result is the lookup of its own key in `f`, the table holds
    `f k` for every requested key that `f` finds, and keeps `table`'s entry
    for every other key. -/
theorem lookup_scatter (f : String → Option V) :
    ∀ {keys : List String} {rs : List (V ⊕ String)} (table : ProtoMap V) (k : String),
      rs.map Sum.getLeft? = keys.map f →
      (scatter keys rs table).lookup k =
        if k ∈ keys ∧ (f k).isSome then f k else table.lookup k
  | [], [], table, k, _ => by simp [scatter]
  | k' :: keys, .inl v :: rs, table, k, hrs => by
    simp only [List.map_cons, List.cons.injEq, Sum.getLeft?_inl] at hrs
    rw [scatter, lookup_scatter f _ k hrs.2]
    by_cases e : k = k'
    · subst e; simp [← hrs.1]
    · simp [e]
  | k' :: keys, .inr _ :: rs, table, k, hrs => by
    simp only [List.map_cons, List.cons.injEq, Sum.getLeft?_inr] at hrs
    rw [scatter, lookup_scatter f _ k hrs.2]
    by_cases e : k = k'
    · subst e; simp [← hrs.1]
    · simp [e]
  | [], _ :: _, _, _, hrs | _ :: _, [], _, _, hrs => by simp at hrs

/-- When every result is the lookup of its own key in `f`, the valid keys are
    the requested keys `f` finds, and the vectors are what it finds there. -/
theorem collectValid_eq (f : String → Option V) :
    ∀ {keys : List String} {rs : List (V ⊕ String)}, rs.map Sum.getLeft? = keys.map f →
      collectValid keys rs = (keys.filter fun k => (f k).isSome, keys.filterMap f)
  | [], [], _ => rfl
  | k :: keys, .inl v :: rs, hrs => by
    simp only [List.map_cons, List.cons.injEq, Sum.getLeft?_inl] at hrs
    simp [collectValid, collectValid_eq f hrs.2, ← hrs.1, List.filter_cons, List.filterMap_cons]
  | k :: keys, .inr _ :: rs, hrs => by
    simp only [List.map_cons, List.cons.injEq, Sum.getLeft?_inr] at hrs
    simp [collectValid, collectValid_eq f hrs.2, ← hrs.1, List.filter_cons, List.filterMap_cons]
  | [], _ :: _, hrs | _ :: _, [], hrs => by simp at hrs

end Loops

section Sections

variable {K G σ ω V : Type} (b : Backend K G σ ω V)

/-- Lines 75–87 once the store has answered: the size check, then the table. -/
def lookupReply (keys : List String) (valueOrErrors : List (V ⊕ String))
    (reg : Registry σ ω) : Reply (LookupResponse V) σ ω :=
  if valueOrErrors.length ≠ keys.length then ⟨Status.inconsistentResult, ⟨∅⟩, reg⟩
  else ⟨Status.OK, ⟨scatter keys valueOrErrors ∅⟩, reg⟩

/-- `Lookup`'s section under the reader lock (lines 67–87). With `update` set,
    the store may create missing keys and so changes state. -/
def lookupSection (reg : Registry σ ω) (request : LookupRequest) :
    Option (Reply (LookupResponse V) σ ω) :=
  let h := request.sessionHandle
  (reg.esMap.lookup h).map fun kb =>
    if request.update then
      let r := b.batchLookupWithUpdate kb request.key
      lookupReply request.key r.1 (reg.setStore h r.2)
    else lookupReply request.key (b.batchLookup kb request.key) reg

/-- `Update`'s values branch under the writer lock (lines 104–116): every
    pair of the map is written, in the map's iteration order. -/
def valuesSection (reg : Registry σ ω) (request : UpdateRequest V) : Option (Registry σ ω) :=
  let h := request.sessionHandle
  (reg.esMap.lookup h).map fun kb =>
    reg.setStore h (b.batchUpdate kb request.values.keys request.values.values)

/-- Step one of the gradient branch (lines 140–159): the keys whose current
    vector was found, with those vectors. -/
def fetchValid (kb : σ) (keys : List String) : Except Status (List String × List V) :=
  let valueOrErrors := b.batchLookup kb keys
  if valueOrErrors.length ≠ keys.length then .error Status.inconsistentResult
  else
    let valid := collectValid keys valueOrErrors
    if valid.1.isEmpty then .error Status.noValidKeys else .ok valid

/-- Step two (lines 161–169): the optimizer's answer, empty on failure. -/
def applyGradients (opt : ω) (embeddings gradients : List V) : Except Status (List V) :=
  let r := b.apply opt embeddings gradients
  if r.1.isEmpty then .error (Status.applyFailed r.2) else .ok r.1

/-- `Update`'s gradient branch under the writer lock (lines 133–173). The
    optimizer is given the vectors of the valid keys and the gradients of all
    keys (line 163); step three writes the result back under the valid keys. -/
def gradientsSection (reg : Registry σ ω) (request : UpdateRequest V) :
    Option (Reply Unit σ ω) :=
  let h := request.sessionHandle
  if h ∉ reg.gdMap then some ⟨Status.optimizerNotCreated, (), reg⟩
  else (reg.esMap.lookup h).bind fun kb =>
    match fetchValid b kb request.gradients.keys with
    | .error status => some ⟨status, (), reg⟩
    | .ok valid =>
      (reg.gdMap.lookup h).bind fun opt =>
        match applyGradients b opt valid.2 request.gradients.values with
        | .error status => some ⟨status, (), reg⟩
        | .ok updated => (reg.esMap.lookup h).map fun kb =>
          ⟨Status.OK, (), reg.setStore h (b.batchUpdate kb valid.1 updated)⟩

variable {b}

theorem lookupSection_registry {reg : Registry σ ω} {request : LookupRequest}
    {r : Reply (LookupResponse V) σ ω} (hr : lookupSection b reg request = some r) :
    reg.StoreWrite request.sessionHandle r.registry := by
  simp only [lookupSection, Option.map_eq_some'] at hr
  obtain ⟨kb, -, rfl⟩ := hr
  split_ifs <;> simp only [lookupReply] <;> split_ifs
  all_goals first | exact .refl _ _ | exact Registry.storeWrite_setStore _ _ _

theorem valuesSection_registry {reg reg' : Registry σ ω} {request : UpdateRequest V}
    (hr : valuesSection b reg request = some reg') :
    reg.StoreWrite request.sessionHandle reg' := by
  simp only [valuesSection, Option.map_eq_some'] at hr
  obtain ⟨kb, -, rfl⟩ := hr
  exact Registry.storeWrite_setStore _ _ _

theorem fetchValid_error {kb : σ} {keys : List String} {st : Status}
    (h : fetchValid b kb keys = .error st) :
    st = Status.inconsistentResult ∨ st = Status.noValidKeys := by
  simp only [fetchValid] at h
  split_ifs at h <;> cases h <;> simp

theorem applyGradients_error {opt : ω} {embeddings gradients : List V} {st : Status}
    (h : applyGradients b opt embeddings gradients = .error st) :
    ∃ errorMsg, st = Status.applyFailed errorMsg := by
  simp only [applyGradients] at h
  split_ifs at h
  cases h
  exact ⟨_, rfl⟩

/-- Everything the gradient branch can do: fail with one of its statuses and
    return the registry it was given, or return `OK` with a new state of the
    handle's store. -/
theorem gradientsSection_cases {reg : Registry σ ω} {request : UpdateRequest V}
    {r : Reply Unit σ ω} (hr : gradientsSection b reg request = some r) :
    (r.registry = reg ∧ (r.status = Status.optimizerNotCreated ∨
      r.status = Status.inconsistentResult ∨ r.status = Status.noValidKeys ∨
      ∃ errorMsg, r.status = Status.applyFailed errorMsg)) ∨
    (r.status = Status.OK ∧ ∃ kb, r.registry = reg.setStore request.sessionHandle kb) := by
  simp only [gradientsSection] at hr
  by_cases hg : request.sessionHandle ∈ reg.gdMap
  · rw [if_neg (not_not.mpr hg)] at hr
    obtain ⟨kb, -, hr⟩ := Option.bind_eq_some.mp hr
    split at hr
    · -- Step one failed.
      rename_i st hf
      cases hr
      exact .inl ⟨rfl, .inr ((fetchValid_error hf).imp_right .inl)⟩
    obtain ⟨opt, -, hr⟩ := Option.bind_eq_some.mp hr
    split at hr
    · -- Step two failed.
      rename_i st ha
      cases hr
      exact .inl ⟨rfl, .inr (.inr (.inr (applyGradients_error ha)))⟩
    · obtain ⟨kb', -, rfl⟩ := Option.map_eq_some'.mp hr
      exact .inr ⟨rfl, _, rfl⟩
  · rw [if_pos hg] at hr
    cases hr
    exact .inl ⟨rfl, .inl rfl⟩

theorem gradientsSection_registry {reg : Registry σ ω} {request : UpdateRequest V}
    {r : Reply Unit σ ω} (hr : gradientsSection b reg request = some r) :
    reg.StoreWrite request.sessionHandle r.registry := by
  rcases gradientsSection_cases hr with ⟨e, -⟩ | ⟨-, kb, e⟩ <;> rw [e]
  · exact .refl _ _
  · exact Registry.storeWrite_setStore _ _ _

theorem isSome_lookupSection {reg : Registry σ ω} {request : LookupRequest}
    (hm : request.sessionHandle ∈ reg.esMap) : (lookupSection b reg request).isSome := by
  simpa [lookupSection, AList.lookup_isSome] using hm

theorem isSome_valuesSection {reg : Registry σ ω} {request : UpdateRequest V}
    (hm : request.sessionHandle ∈ reg.esMap) : (valuesSection b reg request).isSome := by
  simpa [valuesSection, AList.lookup_isSome] using hm

theorem isSome_gradientsSection {reg : Registry σ ω} {request : UpdateRequest V}
    (hm : request.sessionHandle ∈ reg.esMap) : (gradientsSection b reg request).isSome := by
  obtain ⟨kb, hkb⟩ := Option.isSome_iff_exists.mp (AList.lookup_isSome.mpr hm)
  simp only [gradientsSection]
  by_cases hg : request.sessionHandle ∈ reg.gdMap
  · obtain ⟨opt, hopt⟩ := Option.isSome_iff_exists.mp (AList.lookup_isSome.mpr hg)
    rw [if_neg (not_not.mpr hg)]
    simp only [hkb, hopt, Option.some_bind]
    split
    · rfl
    split <;> simp
  · rw [if_pos hg]; rfl

end Sections

end Carls
