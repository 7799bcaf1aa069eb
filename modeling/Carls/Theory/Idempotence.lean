import Carls.Theory.Construction

/-!
# Starting a Session Twice

`StartSession` is meant to be idempotent: the handle is the serialized
request, and a second start of the same request finds the session in place
and changes nothing.

The argument rests on `Settled`, the condition under which
`StartSessionIfNecessary` on `h` builds nothing: `h` has a store or the store
factory returns null, and a store of `h` has its optimizer or the optimizer
factory returns null. It is a condition on which entries `h` has, not on their
contents, because the function only ever tests `contains`. One call settles
`h` (`settled_startSessionIfNecessary`), and from a settled registry the call
returns it unchanged (`startSessionIfNecessary_of_settled`).

Every request keeps which entries `h` has, once `h` is settled: a request on
another handle leaves `h`'s entries alone, a request on `h` finds nothing to
build and then only changes the state of `h`'s store. So after any run the
registry is still settled with the same entries for `h`, and since the status
is read off those entries (`startSessionIfNecessary_fst`), a repeated start
answers exactly as the first one did.

The first start does not always answer with the handle: when a factory
returns null it answers with that factory's `INTERNAL` status and an empty
response (`startSession_answer`, `startSession_fails_without_store`).

## Main definitions

* `Settled`: A start of `h` would build nothing.
* `StartAnswer`: The answer a start should give, read off the factories.

## Theorems

* `settled_startSessionIfNecessary`: One start settles its handle.
* `startSessionIfNecessary_of_settled`: A settled handle's start changes nothing.
* `serve_mem_of_settled`: Requests keep a settled handle's entries.
* `startSession_answer`: The first start answers with the handle, or with the
  failure of the factory that returned null.
* `startSession_idempotent`: The whole property.
* `startSession_fails_without_store`: A start whose store factory fails.
-/

namespace Carls

section Settled

variable {K G σ ω V : Type} (b : Backend K G σ ω V)

/-- `StartSessionIfNecessary` on `h` would build nothing. -/
def Settled (h : String) (reg : Registry σ ω) : Prop :=
  (h ∈ reg.esMap ∨
    b.make (b.sessionConfig h).knowledgeBankConfig (b.sessionConfig h).embeddingDimension = none) ∧
  (h ∈ reg.esMap → h ∈ reg.gdMap ∨ ∀ gd, (b.sessionConfig h).gradientDescentConfig = some gd →
    b.create (b.sessionConfig h).embeddingDimension gd = none)

/-- The answer `StartSession` should give for handle `h` on `reg`, read off
    the factories: `INTERNAL` with the store factory's message and an empty
    handle when `h` has no store and that factory returns null; `INTERNAL`
    with the optimizer factory's message and an empty handle when `h` has or
    gets a store, its configuration asks for an optimizer `h` lacks, and that
    factory returns null; and `OK` with the handle otherwise. -/
def StartAnswer (reg : Registry σ ω) (h : String) (status : Status) (response : String) : Prop :=
  let c := b.sessionConfig h
  (h ∉ reg.esMap ∧ b.make c.knowledgeBankConfig c.embeddingDimension = none ∧
    status = Status.knowledgeBankFailed ∧ response = "") ∨
  ((h ∈ reg.esMap ∨ (b.make c.knowledgeBankConfig c.embeddingDimension).isSome) ∧
    (∃ gd, c.gradientDescentConfig = some gd ∧ h ∉ reg.gdMap ∧
      b.create c.embeddingDimension gd = none) ∧
    status = Status.optimizerFailed ∧ response = "") ∨
  ((h ∈ reg.esMap ∨ (b.make c.knowledgeBankConfig c.embeddingDimension).isSome) ∧
    (∀ gd, c.gradientDescentConfig = some gd → h ∉ reg.gdMap →
      (b.create c.embeddingDimension gd).isSome) ∧
    status = Status.OK ∧ response = h)

theorem settled_startSessionIfNecessary (reg : Registry σ ω) (h : String) :
    Settled b h (startSessionIfNecessary b reg h).2 := by
  constructor
  · by_contra hn
    rw [not_or, mem_esMap_startSessionIfNecessary, not_or] at hn
    exact hn.1.2 (by simpa [Option.isSome_iff_ne_none] using hn.2)
  · intro hm
    rw [mem_gdMap_startSessionIfNecessary]
    by_cases hc : ∀ gd, (b.sessionConfig h).gradientDescentConfig = some gd →
        b.create (b.sessionConfig h).embeddingDimension gd = none
    · exact .inr hc
    · push_neg at hc
      obtain ⟨gd, hgd, hc⟩ := hc
      exact .inl (.inr ⟨hm, gd, hgd, Option.isSome_iff_ne_none.mpr hc⟩)

/-- What the optimizer half of a start reports: the optimizer factory's
    failure when the configuration asks for an optimizer, `h` has none, and
    the factory returns null; `OK` otherwise. -/
theorem createOptimizer_fst_cases (reg : Registry σ ω) (h : String)
    (c : DynamicEmbeddingConfig K G) :
    ((∃ gd, c.gradientDescentConfig = some gd ∧ h ∉ reg.gdMap ∧
        b.create c.embeddingDimension gd = none) ∧
      (createOptimizer b reg h c).1 = Status.optimizerFailed) ∨
    ((∀ gd, c.gradientDescentConfig = some gd → h ∉ reg.gdMap →
        (b.create c.embeddingDimension gd).isSome) ∧
      (createOptimizer b reg h c).1 = Status.OK) := by
  rcases createOptimizer_cases b reg h c with
    ⟨hn, e⟩ | ⟨gd, hgd, hn, hc, e⟩ | ⟨gd, opt, hgd, hn, hc, e⟩ <;> rw [e]
  · refine .inr ⟨fun gd hgd hn' => ?_, rfl⟩
    rcases hn with hn | hn
    · cases hgd.symm.trans hn
    · exact absurd hn hn'
  · exact .inl ⟨⟨gd, hgd, hn, hc⟩, rfl⟩
  · refine .inr ⟨fun gd' hgd' _ => ?_, rfl⟩
    cases hgd.symm.trans hgd'
    rw [hc]
    rfl

/-- `StartSession` with a name answers as `StartAnswer` reads it off the
    factories. -/
theorem startSession_answer (reg : Registry σ ω) {request : StartSessionRequest K G}
    (hname : request.name ≠ "") :
    StartAnswer b reg (b.serializeAsString request) (startSession b reg request).status
      (startSession b reg request).response := by
  set h := b.serializeAsString request
  simp only [StartAnswer, startSession, if_neg hname]
  rcases createKnowledgeBank_cases b reg h (b.sessionConfig h) with
    ⟨hm, e⟩ | ⟨hm, hk, e⟩ | ⟨kb, hm, hk, e⟩
  · -- `h` has its store: what is left is the optimizer's half.
    rw [startSessionIfNecessary_of_ok (by rw [e]; rfl), e]
    rcases createOptimizer_fst_cases b reg h (b.sessionConfig h) with ⟨hc, e'⟩ | ⟨hc, e'⟩ <;>
      rw [e']
    · exact .inr (.inl ⟨.inl hm, hc, rfl, rfl⟩)
    · exact .inr (.inr ⟨.inl hm, hc, rfl, rfl⟩)
  · -- The store factory returns null.
    rw [startSessionIfNecessary_of_not_ok (by rw [e]; simp [Status.knowledgeBankFailed]), e]
    exact .inl ⟨hm, hk, rfl, rfl⟩
  · -- The store factory builds one, then the optimizer's half.
    rw [startSessionIfNecessary_of_ok (by rw [e]; rfl), e]
    rcases createOptimizer_fst_cases b _ h (b.sessionConfig h) with ⟨hc, e'⟩ | ⟨hc, e'⟩ <;>
      rw [e']
    · exact .inr (.inl ⟨.inr (by rw [hk]; rfl), hc, rfl, rfl⟩)
    · exact .inr (.inr ⟨.inr (by rw [hk]; rfl), hc, rfl, rfl⟩)

variable {b}

theorem Settled.congr {h : String} {reg reg' : Registry σ ω} (hs : Settled b h reg)
    (hes : h ∈ reg'.esMap ↔ h ∈ reg.esMap) (hgd : h ∈ reg'.gdMap ↔ h ∈ reg.gdMap) :
    Settled b h reg' := by
  simpa only [Settled, hes, hgd] using hs

theorem startSessionIfNecessary_of_settled {reg : Registry σ ω} {h : String}
    (hs : Settled b h reg) : (startSessionIfNecessary b reg h).2 = reg := by
  rcases createKnowledgeBank_cases b reg h (b.sessionConfig h) with
    ⟨hm, e⟩ | ⟨hm, -, e⟩ | ⟨kb, hm, hk, e⟩
  · rw [startSessionIfNecessary_of_ok (by simp [e]), e]
    rcases createOptimizer_cases b reg h (b.sessionConfig h) with
      ⟨-, e'⟩ | ⟨-, -, -, -, e'⟩ | ⟨gd, opt, hgd, hg, hc, -⟩
    · rw [e']
    · rw [e']
    · -- A settled store either has its optimizer or the factory cannot build one.
      rcases hs.2 hm with hg' | hc'
      · exact absurd hg' hg
      · simp [hc' gd hgd] at hc
  · rw [startSessionIfNecessary_of_not_ok (by simp [e, Status.knowledgeBankFailed]), e]
  · exact absurd hk (by simp [hs.1.resolve_left hm])

/-- From a registry where `h` is settled, every request leaves `h` with the
    same entries, and so settled. -/
theorem serve_mem_of_settled {reg : Registry σ ω} {h : String} (hs : Settled b h reg)
    {rq : Request K G V} {r : Reply (Response V) σ ω} (hr : serve b reg rq = some r) :
    (h ∈ r.registry.esMap ↔ h ∈ reg.esMap) ∧ (h ∈ r.registry.gdMap ↔ h ∈ reg.gdMap) := by
  cases hh : rq.sessionHandle b with
  | none => rw [(serve_registry hr).2 hh]; exact ⟨.rfl, .rfl⟩
  | some h' =>
    have he := (serve_registry hr).1 h' hh
    by_cases e : h = h'
    · -- The request's own start builds nothing, and its sections write no map.
      subst e
      obtain ⟨reg₁, h₁, hw⟩ := he
      obtain rfl : reg₁ = reg := h₁.elim id fun e => e.trans (startSessionIfNecessary_of_settled hs)
      exact ⟨hw.mem_esMap h, by rw [hw.gdMap_eq]⟩
    · exact Registry.mem_iff_of_slot_eq (he.slot_ne e)

theorem serveAll_mem_of_settled {h : String} :
    ∀ (rqs : List (Request K G V)) {reg reg' : Registry σ ω}, Settled b h reg →
      serveAll b reg rqs = some reg' →
      (h ∈ reg'.esMap ↔ h ∈ reg.esMap) ∧ (h ∈ reg'.gdMap ↔ h ∈ reg.gdMap)
  | [], _, _, _, hrun => by cases hrun; exact ⟨.rfl, .rfl⟩
  | rq :: rqs, reg, reg', hs, hrun => by
    obtain ⟨r, hr, hrun⟩ := Option.bind_eq_some.mp hrun
    have h₁ := serve_mem_of_settled hs hr
    have h₂ := serveAll_mem_of_settled rqs (hs.congr h₁.1 h₁.2) hrun
    exact ⟨h₂.1.trans h₁.1, h₂.2.trans h₁.2⟩

end Settled

/-- `StartSession` is idempotent. The start every handler runs only adds
    missing entries of its handle, replacing and touching nothing else; with a
    nonempty name it answers as `StartAnswer` reads off the factories: `OK`
    with the serialized request as handle, or the `INTERNAL` status of the
    factory that returned null with an empty handle; and after any run of
    further requests, starting the same request again gives the same status
    and response and leaves the registry as it was. -/
theorem startSession_idempotent {K G σ ω V : Type} (b : Backend K G σ ω V)
    (reg : Registry σ ω) (request : StartSessionRequest K G) (hname : request.name ≠ "") :
    (∀ h, reg.AddsOnly h (startSessionIfNecessary b reg h).2) ∧
    StartAnswer b reg (b.serializeAsString request) (startSession b reg request).status
      (startSession b reg request).response ∧
    ∀ (rqs : List (Request K G V)) (reg' : Registry σ ω),
      serveAll b (startSession b reg request).registry rqs = some reg' →
      startSession b reg' request = { startSession b reg request with registry := reg' } := by
  set h := b.serializeAsString request
  have hreg : (startSession b reg request).registry = (startSessionIfNecessary b reg h).2 := by
    simp only [startSession, if_neg hname]; split_ifs <;> rfl
  refine ⟨addsOnly_startSessionIfNecessary b reg, startSession_answer b reg hname,
    fun rqs reg' hrun => ?_⟩
  rw [hreg] at hrun
  have hs := settled_startSessionIfNecessary b reg h
  have hm := serveAll_mem_of_settled rqs hs hrun
  -- The repeated start builds nothing and reports what the entries of `h` say.
  have hfix := startSessionIfNecessary_of_settled (hs.congr hm.1 hm.2)
  have hst : (startSessionIfNecessary b reg' h).1 = (startSessionIfNecessary b reg h).1 := by
    rw [startSessionIfNecessary_fst, startSessionIfNecessary_fst b reg, hfix]
    exact startStatus_congr b hm.1 hm.2
  simp only [startSession, if_neg hname, hst, hfix]
  split_ifs <;> rfl

theorem startSession_idempotent_emb :
    embRequest.name ≠ "" ∧
    (∀ h, (Registry.empty : Registry (String → Option Int) Unit).AddsOnly h
      (startSessionIfNecessary (exampleBackend fun _ _ => some ()) Registry.empty h).2) ∧
    StartAnswer (exampleBackend fun _ _ => some ()) Registry.empty
      ((exampleBackend fun _ _ => some ()).serializeAsString embRequest)
      (startSession (exampleBackend fun _ _ => some ()) Registry.empty embRequest).status
      (startSession (exampleBackend fun _ _ => some ()) Registry.empty embRequest).response ∧
    ∀ (rqs : List (Request Unit Unit Int)) (reg' : Registry (String → Option Int) Unit),
      serveAll (exampleBackend fun _ _ => some ())
        (startSession (exampleBackend fun _ _ => some ()) Registry.empty embRequest).registry rqs =
          some reg' →
      startSession (exampleBackend fun _ _ => some ()) reg' embRequest =
        { startSession (exampleBackend fun _ _ => some ()) Registry.empty embRequest with
          registry := reg' } :=
  ⟨by decide, startSession_idempotent _ Registry.empty embRequest (by decide)⟩

/-- `exampleBackend`, with a store factory that always returns null. -/
def noStoreBackend : Backend Unit Unit (String → Option Int) Unit Int :=
  { exampleBackend fun _ _ => some () with make := fun _ _ => none }

/-- A start that does not answer with the serialized request: the store
    factory returns null, and `StartSession` answers `INTERNAL` with an empty
    handle. -/
theorem startSession_fails_without_store :
    embRequest.name ≠ "" ∧
    (startSession noStoreBackend Registry.empty embRequest).status = Status.knowledgeBankFailed ∧
    (startSession noStoreBackend Registry.empty embRequest).response ≠
      noStoreBackend.serializeAsString embRequest := by
  decide

end Carls
