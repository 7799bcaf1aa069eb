import Carls.Theory.Idempotence

/-!
# Sessions Are Isolated

A request names one session, and nothing else in the registry takes part in
it: the service reads and writes the two maps only at the request's handle.

Two facts make this precise. The frame: every other handle keeps its store
and its optimizer, which `HandlerEffect.slot_ne` already gives for each
handler. Non-interference: the status, the response and the entries the
request leaves for its own handle depend on the registry only through that
handle's entries. `Reply.view h` is what a reply shows about `h`, and each
function of the service is shown to map registries with the same entries for
`h` to replies with the same view: `StartSessionIfNecessary` by its
per-handle formulas, each section by following its branches, and each handler
by composing the two.

`KnowledgeBankSize` is the one request that is not isolated: it counts every
session.

## Main definitions

* `Reply.view`: The status, the response and the entries left for one handle.

## Theorems

* `startSessionIfNecessary_congr`: The start of `h` sees only `h`.
* `lookupSection_congr`, `valuesSection_congr`, `gradientsSection_congr`,
  `writeValues_congr`, `writeGradients_congr`: So do the sections.
* `startSession_congr`, `lookup_congr`, `update_congr`: So do the handlers.
* `serve_isolated`: A request on `h` leaves other handles alone and sees only
  `h`.
-/

namespace Carls

/-- What a reply shows about handle `h`: the status, the response, and the
    entries left for `h`. -/
def Reply.view {R σ ω : Type} (h : String) (r : Reply R σ ω) :
    Status × R × (Option σ × Option ω) :=
  (r.status, r.response, r.registry.slot h)

theorem Reply.view_mapResponse {R R' σ ω : Type} (h : String) (f : R → R') (r : Reply R σ ω) :
    (r.mapResponse f).view h = ((r.view h).1, f (r.view h).2.1, (r.view h).2.2) := rfl

/-- Binding two options whose values agree under `f` into a function that
    maps `f`-agreeing values to `F`-agreeing results. -/
theorem map_bind_congr {α γ β δ : Type} {o₁ o₂ : Option α} (f : α → β) {g : α → Option γ}
    {F : γ → δ} (ho : o₁.map f = o₂.map f)
    (hg : ∀ a₁ a₂, f a₁ = f a₂ → (g a₁).map F = (g a₂).map F) :
    (o₁.bind g).map F = (o₂.bind g).map F :=
  match o₁, o₂, ho with
  | none, none, _ => rfl
  | some a₁, some a₂, ho => hg a₁ a₂ (Option.some.inj ho)
  | none, some _, ho | some _, none, ho => by simp at ho

section Congruence

variable {K G σ ω V : Type} (b : Backend K G σ ω V)

theorem startSessionIfNecessary_congr {reg₁ reg₂ : Registry σ ω} {h : String}
    (hs : reg₁.slot h = reg₂.slot h) :
    (startSessionIfNecessary b reg₁ h).1 = (startSessionIfNecessary b reg₂ h).1 ∧
    (startSessionIfNecessary b reg₁ h).2.slot h = (startSessionIfNecessary b reg₂ h).2.slot h := by
  obtain ⟨hes₀, hgd₀⟩ := Registry.slot_eq_iff.mp hs
  have hes : (startSessionIfNecessary b reg₁ h).2.esMap.lookup h =
      (startSessionIfNecessary b reg₂ h).2.esMap.lookup h := by
    rw [lookup_esMap_startSessionIfNecessary, lookup_esMap_startSessionIfNecessary, hes₀]
  have hm : h ∈ (startSessionIfNecessary b reg₁ h).2.esMap ↔
      h ∈ (startSessionIfNecessary b reg₂ h).2.esMap := by
    rw [← AList.lookup_isSome, hes, AList.lookup_isSome]
  have hslot : (startSessionIfNecessary b reg₁ h).2.slot h =
      (startSessionIfNecessary b reg₂ h).2.slot h := by
    simp only [Registry.slot, hes, lookup_gdMap_startSessionIfNecessary, hgd₀, hm]
  refine ⟨?_, hslot⟩
  -- The status is read off the entries of `h`, which agree.
  rw [startSessionIfNecessary_fst, startSessionIfNecessary_fst b reg₂]
  exact startStatus_congr b (Registry.mem_iff_of_slot_eq hslot).1
    (Registry.mem_iff_of_slot_eq hslot).2

theorem lookupSection_congr {reg₁ reg₂ : Registry σ ω} {request : LookupRequest}
    (hs : reg₁.slot request.sessionHandle = reg₂.slot request.sessionHandle) :
    (lookupSection b reg₁ request).map (Reply.view request.sessionHandle) =
      (lookupSection b reg₂ request).map (Reply.view request.sessionHandle) := by
  obtain ⟨hes, hgd⟩ := Registry.slot_eq_iff.mp hs
  simp only [lookupSection, hes]
  cases hk : reg₂.esMap.lookup request.sessionHandle with
  | none => rfl
  | some kb =>
    have hm₁ := mem_of_lookup (hes.trans hk)
    have hm₂ := mem_of_lookup hk
    simp only [Option.map_some', Option.some.injEq]
    split_ifs <;> simp only [lookupReply] <;> split_ifs <;> simp [Reply.view, hm₁, hm₂, hgd, hs]

theorem valuesSection_congr {reg₁ reg₂ : Registry σ ω} {request : UpdateRequest V}
    (hs : reg₁.slot request.sessionHandle = reg₂.slot request.sessionHandle) :
    (valuesSection b reg₁ request).map (·.slot request.sessionHandle) =
      (valuesSection b reg₂ request).map (·.slot request.sessionHandle) := by
  obtain ⟨hes, hgd⟩ := Registry.slot_eq_iff.mp hs
  simp only [valuesSection, hes]
  cases hk : reg₂.esMap.lookup request.sessionHandle with
  | none => rfl
  | some kb => simp [mem_of_lookup (hes.trans hk), mem_of_lookup hk, hgd]

theorem gradientsSection_congr {reg₁ reg₂ : Registry σ ω} {request : UpdateRequest V}
    (hs : reg₁.slot request.sessionHandle = reg₂.slot request.sessionHandle) :
    (gradientsSection b reg₁ request).map (Reply.view request.sessionHandle) =
      (gradientsSection b reg₂ request).map (Reply.view request.sessionHandle) := by
  obtain ⟨hes, hgd⟩ := Registry.slot_eq_iff.mp hs
  have hmg : request.sessionHandle ∈ reg₁.gdMap ↔ request.sessionHandle ∈ reg₂.gdMap := by
    rw [← AList.lookup_isSome, hgd, AList.lookup_isSome]
  simp only [gradientsSection]
  by_cases hg : request.sessionHandle ∈ reg₂.gdMap
  · rw [if_neg (not_not.mpr (hmg.mpr hg)), if_neg (not_not.mpr hg), hes, hgd]
    cases hk : reg₂.esMap.lookup request.sessionHandle with
    | none => rfl
    | some kb =>
      have hm₁ := mem_of_lookup (hes.trans hk)
      have hm₂ := mem_of_lookup hk
      simp only [Option.some_bind]
      -- Every branch returns the registry it was given or writes `h`'s store.
      split
      · simp [Reply.view, hs]
      · cases reg₂.gdMap.lookup request.sessionHandle with
        | none => rfl
        | some opt =>
          simp only [Option.some_bind]
          split
          · simp [Reply.view, hs]
          · simp [Reply.view, hm₁, hm₂, hgd]
  · rw [if_pos (mt hmg.mp hg), if_pos hg]
    simp [Reply.view, hs]

theorem writeValues_congr {reg₁ reg₂ : Registry σ ω} {request : UpdateRequest V}
    (hs : reg₁.slot request.sessionHandle = reg₂.slot request.sessionHandle) :
    (writeValues b reg₁ request).map (·.slot request.sessionHandle) =
      (writeValues b reg₂ request).map (·.slot request.sessionHandle) := by
  simp only [writeValues]
  split_ifs
  · simp [hs]
  · exact valuesSection_congr b hs

theorem writeGradients_congr {reg₁ reg₂ : Registry σ ω} {request : UpdateRequest V}
    (hs : reg₁.slot request.sessionHandle = reg₂.slot request.sessionHandle) :
    (writeGradients b reg₁ request).map (Reply.view request.sessionHandle) =
      (writeGradients b reg₂ request).map (Reply.view request.sessionHandle) := by
  simp only [writeGradients]
  split_ifs
  · simp [Reply.view, hs]
  · exact gradientsSection_congr b hs

theorem startSession_congr {reg₁ reg₂ : Registry σ ω} {request : StartSessionRequest K G}
    (hs : reg₁.slot (b.serializeAsString request) = reg₂.slot (b.serializeAsString request)) :
    (startSession b reg₁ request).view (b.serializeAsString request) =
      (startSession b reg₂ request).view (b.serializeAsString request) := by
  obtain ⟨hst, hsl⟩ := startSessionIfNecessary_congr b hs
  simp only [startSession, hst]
  split_ifs <;> simp [Reply.view, hs, hsl]

theorem lookup_congr {reg₁ reg₂ : Registry σ ω} {request : LookupRequest}
    (hs : reg₁.slot request.sessionHandle = reg₂.slot request.sessionHandle) :
    (lookup b reg₁ request).map (Reply.view request.sessionHandle) =
      (lookup b reg₂ request).map (Reply.view request.sessionHandle) := by
  obtain ⟨hst, hsl⟩ := startSessionIfNecessary_congr b hs
  simp only [lookup, hst]
  split_ifs
  · simp [Reply.view, hs]
  · simp [Reply.view, hs]
  · exact lookupSection_congr b hsl
  · simp [Reply.view, hsl]

theorem update_congr {reg₁ reg₂ : Registry σ ω} {request : UpdateRequest V}
    (hs : reg₁.slot request.sessionHandle = reg₂.slot request.sessionHandle) :
    (update b reg₁ request).map (Reply.view request.sessionHandle) =
      (update b reg₂ request).map (Reply.view request.sessionHandle) := by
  obtain ⟨hst, hsl⟩ := startSessionIfNecessary_congr b hs
  simp only [update, hst]
  split_ifs
  · simp [Reply.view, hs]
  · simp [Reply.view, hs]
  · -- The values branch leaves agreeing entries, and the gradient branch starts from them.
    exact map_bind_congr (·.slot request.sessionHandle) (writeValues_congr b hsl)
      fun _ _ hr => writeGradients_congr b hr
  · simp [Reply.view, hsl]

end Congruence

/-- A `StartSession`, `Lookup` or `Update` request on `h` leaves the entries
    of every other handle as they were, and two registries with the same
    entries for `h` give the same status, the same response and the same
    resulting entries for `h`. -/
theorem serve_isolated {K G σ ω V : Type} (b : Backend K G σ ω V) {rq : Request K G V}
    {h : String} (hh : rq.sessionHandle b = some h) :
    (∀ (reg : Registry σ ω) r, serve b reg rq = some r →
      ∀ h', h' ≠ h → r.registry.slot h' = reg.slot h') ∧
    ∀ reg₁ reg₂ : Registry σ ω, reg₁.slot h = reg₂.slot h →
      (serve b reg₁ rq).map (Reply.view h) = (serve b reg₂ rq).map (Reply.view h) := by
  refine ⟨fun reg r hr h' hne => ((serve_registry hr).1 h hh).slot_ne hne,
    fun reg₁ reg₂ hs => ?_⟩
  cases rq with
  | startSession request =>
    cases hh
    simp only [serve, Option.map_some', Reply.view_mapResponse, startSession_congr b hs]
  | lookup request =>
    cases hh
    have := congrArg (Option.map fun v => (v.1, Response.lookup v.2.1, v.2.2))
      (lookup_congr b hs)
    simpa [serve, Option.map_map, Function.comp_def, Reply.view_mapResponse] using this
  | update request =>
    cases hh
    have := congrArg (Option.map fun v => (v.1, (Response.update : Response V), v.2.2))
      (update_congr b hs)
    simpa [serve, Option.map_map, Function.comp_def, Reply.view_mapResponse] using this
  | knowledgeBankSize => cases hh

/-- Isolation at the test session: a request to look up `emb`. -/
theorem serve_isolated_emb :
    (Request.lookup ⟨"emb", ["first"], true⟩ : Request Unit Unit Int).sessionHandle
        (exampleBackend fun _ _ => some ()) = some "emb" ∧
    (∀ (reg : Registry (String → Option Int) Unit) r,
      serve (exampleBackend fun _ _ => some ()) reg (.lookup ⟨"emb", ["first"], true⟩) = some r →
      ∀ h', h' ≠ "emb" → r.registry.slot h' = reg.slot h') ∧
    ∀ reg₁ reg₂ : Registry (String → Option Int) Unit, reg₁.slot "emb" = reg₂.slot "emb" →
      (serve (exampleBackend fun _ _ => some ()) reg₁ (.lookup ⟨"emb", ["first"], true⟩)).map
          (Reply.view "emb") =
        (serve (exampleBackend fun _ _ => some ()) reg₂ (.lookup ⟨"emb", ["first"], true⟩)).map
          (Reply.view "emb") :=
  ⟨rfl, serve_isolated (exampleBackend fun _ _ => some ()) rfl⟩

end Carls
