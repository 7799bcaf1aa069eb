import Carls.Store.MapStore

/-!
# Sessions Are Constructed Store First

What the two maps say about each other in every registry the service can
reach.

`StartSessionIfNecessary` builds a session in two steps under one lock: the
store, inserted into `es_map_` as soon as the factory returns it, then the
optimizer, if the configuration has a `gradient_descent_config`. The second
step can fail after the first has succeeded, and the function then returns
with the store in place and no optimizer. So the registry does not keep
"a session that asks for an optimizer has one": `optimizer_missing_after_start`
exhibits a reachable registry where it fails, a session that
`KnowledgeBankSize` counts and that has no optimizer.

What it does keep is the pair `OptimizersBacked` and `OptimizersPresent`. An
optimizer never exists without its store and its configuration, and a store
whose configuration asks for an optimizer lacks one only when the optimizer
factory returns null on that very configuration. Since the factory is a
function of the configuration, such a session stays half-constructed: every
later request on it retries and fails the same way.

Sessions are never dropped: `KnowledgeBankSize` grows by at most one per
request and never decreases along a run (`knowledgeBankSize_serveAll`).

The proof is the usual one for an invariant of a request loop. Both
predicates hold of the empty registry; `StartSessionIfNecessary` keeps them,
by the per-handle formulas of `Service.Registry`; a lock-held section keeps
them because it writes no map; so every request keeps them
(`SessionsConstructed.serve`), and `serveAll_induction` carries them along a
run.

## Main definitions

* `OptimizersBacked`: Every optimizer has its store and is asked for.
* `OptimizersPresent`: Every store has the optimizer it asks for, unless the
  factory cannot build it.
* `SessionsConstructed`: Both.

## Theorems

* `SessionsConstructed.startSessionIfNecessary`: One creation keeps them.
* `SessionsConstructed.serve`: One request keeps them.
* `sessionsConstructed_of_reachable`: They hold in every reachable registry.
* `knowledgeBankSize_serveAll`: The number of sessions along a run.
* `optimizer_missing_after_start`: A reachable registry with a store whose
  configuration asks for an optimizer it does not have.
-/

namespace Carls

section Invariant

variable {K G σ ω V : Type} (b : Backend K G σ ω V)

/-- Every optimizer belongs to a session with a store, whose configuration has
    a `gradient_descent_config`. -/
def OptimizersBacked (reg : Registry σ ω) : Prop :=
  ∀ h ∈ reg.gdMap, h ∈ reg.esMap ∧ (b.sessionConfig h).gradientDescentConfig.isSome

/-- Every session with a store whose configuration has a
    `gradient_descent_config` has an optimizer, unless the optimizer factory
    returns null on that configuration. -/
def OptimizersPresent (reg : Registry σ ω) : Prop :=
  ∀ h ∈ reg.esMap, ∀ gd, (b.sessionConfig h).gradientDescentConfig = some gd →
    h ∈ reg.gdMap ∨ b.create (b.sessionConfig h).embeddingDimension gd = none

/-- The invariant of the registry. -/
def SessionsConstructed (reg : Registry σ ω) : Prop :=
  OptimizersBacked b reg ∧ OptimizersPresent b reg

variable {b}

theorem sessionsConstructed_empty : SessionsConstructed b (Registry.empty : Registry σ ω) :=
  ⟨fun _ h => by simp [Registry.empty] at h, fun _ h => by simp [Registry.empty] at h⟩

/-- A section keeps the invariant: it writes neither map. -/
theorem SessionsConstructed.storeWrite {reg reg' : Registry σ ω} {h : String}
    (hi : SessionsConstructed b reg) (hw : reg.StoreWrite h reg') : SessionsConstructed b reg' := by
  refine ⟨fun h' hg => ?_, fun h' hm gd hgd => ?_⟩
  · rw [hw.gdMap_eq] at hg
    exact ⟨(hw.mem_esMap h').mpr (hi.1 h' hg).1, (hi.1 h' hg).2⟩
  · rw [hw.gdMap_eq]
    exact hi.2 h' ((hw.mem_esMap h').mp hm) gd hgd

theorem SessionsConstructed.startSessionIfNecessary {reg : Registry σ ω} (h : String)
    (hi : SessionsConstructed b reg) :
    SessionsConstructed b (startSessionIfNecessary b reg h).2 := by
  have ha := addsOnly_startSessionIfNecessary b reg h
  refine ⟨fun h' hg => ?_, fun h' hm gd hgd => ?_⟩
  · by_cases e : h' = h
    · -- The optimizer of `h` is old, or was just built for a store and a configuration.
      subst e
      rcases (mem_gdMap_startSessionIfNecessary b reg h').mp hg with hg | ⟨hm, gd, hgd, -⟩
      · exact ⟨ha.mem_esMap (hi.1 h' hg).1, (hi.1 h' hg).2⟩
      · exact ⟨hm, by simp [hgd]⟩
    · have hs := (Registry.mem_iff_of_slot_eq (ha.slot_ne e)).2
      exact ⟨ha.mem_esMap (hi.1 h' (hs.mp hg)).1, (hi.1 h' (hs.mp hg)).2⟩
  · by_cases e : h' = h
    · -- `h` has a store, so the optimizer factory was consulted if it had to be.
      subst e
      rw [mem_gdMap_startSessionIfNecessary]
      cases hc : b.create (b.sessionConfig h').embeddingDimension gd
      · exact .inr rfl
      · exact .inl (.inr ⟨hm, gd, hgd, by simp [hc]⟩)
    · have hs := Registry.mem_iff_of_slot_eq (ha.slot_ne e)
      rcases hi.2 h' (hs.1.mp hm) gd hgd with hg | hc
      · exact .inl (hs.2.mpr hg)
      · exact .inr hc

theorem SessionsConstructed.serve {reg : Registry σ ω} (hi : SessionsConstructed b reg)
    {rq : Request K G V} {r : Reply (Response V) σ ω} (hr : serve b reg rq = some r) :
    SessionsConstructed b r.registry := by
  cases hh : rq.sessionHandle b with
  | none => rw [(serve_registry hr).2 hh]; exact hi
  | some h =>
    obtain ⟨reg₁, rfl | rfl, hw⟩ := (serve_registry hr).1 h hh
    · exact hi.storeWrite hw
    · exact (hi.startSessionIfNecessary h).storeWrite hw

/-- In every reachable registry, an optimizer comes with its store and its
    configuration, and a store whose configuration has a
    `gradient_descent_config` comes with an optimizer unless
    `GradientDescentOptimizer::Create` returns null on that configuration. -/
theorem sessionsConstructed_of_reachable {reg : Registry σ ω} (hr : Reachable b reg) :
    (∀ h ∈ reg.gdMap, h ∈ reg.esMap ∧ (b.sessionConfig h).gradientDescentConfig.isSome) ∧
    (∀ h ∈ reg.esMap, ∀ gd, (b.sessionConfig h).gradientDescentConfig = some gd →
      h ∈ reg.gdMap ∨ b.create (b.sessionConfig h).embeddingDimension gd = none) := by
  obtain ⟨rqs, hrun⟩ := hr
  exact serveAll_induction b (fun _ _ _ hi hs => hi.serve hs) rqs _ _ sessionsConstructed_empty hrun

/-- A request adds at most one session and removes none. -/
theorem knowledgeBankSize_serve {reg : Registry σ ω} {rq : Request K G V}
    {r : Reply (Response V) σ ω} (hr : serve b reg rq = some r) :
    reg.knowledgeBankSize ≤ r.registry.knowledgeBankSize ∧
    r.registry.knowledgeBankSize ≤ reg.knowledgeBankSize + 1 := by
  cases hh : rq.sessionHandle b with
  | none => rw [(serve_registry hr).2 hh]; omega
  | some h =>
    obtain ⟨reg₁, rfl | rfl, hw⟩ := (serve_registry hr).1 h hh
    · rw [hw.knowledgeBankSize_eq]; omega
    · rw [hw.knowledgeBankSize_eq]; exact knowledgeBankSize_startSessionIfNecessary b reg h

/-- Along a run, `KnowledgeBankSize` never decreases, and grows by at most
    one per request. -/
theorem knowledgeBankSize_serveAll :
    ∀ (rqs : List (Request K G V)) {reg reg' : Registry σ ω}, serveAll b reg rqs = some reg' →
      reg.knowledgeBankSize ≤ reg'.knowledgeBankSize ∧
      reg'.knowledgeBankSize ≤ reg.knowledgeBankSize + rqs.length
  | [], _, _, hrun => by cases hrun; omega
  | rq :: rqs, _, _, hrun => by
    obtain ⟨r, hr, hrun⟩ := Option.bind_eq_some.mp hrun
    have h₁ := knowledgeBankSize_serve hr
    have h₂ := knowledgeBankSize_serveAll rqs hrun
    rw [List.length_cons]
    omega

end Invariant

/-- The `StartSession` request of the tests: session `emb`. -/
def embRequest : StartSessionRequest Unit Unit := ⟨"emb", ⟨1, (), some ()⟩⟩

/-- The registry `StartSession` leaves on a fresh service whose optimizer
    factory always fails. -/
def halfStarted : Registry (String → Option Int) Unit :=
  (startSession (exampleBackend fun _ _ => none) Registry.empty embRequest).registry

/-- The run that leaves `halfStarted` adds one session. -/
theorem knowledgeBankSize_serveAll_halfStarted :
    serveAll (exampleBackend fun _ _ => none) Registry.empty [.startSession embRequest] =
      some halfStarted ∧
    (Registry.empty : Registry (String → Option Int) Unit).knowledgeBankSize ≤
      halfStarted.knowledgeBankSize ∧
    halfStarted.knowledgeBankSize ≤
      (Registry.empty : Registry (String → Option Int) Unit).knowledgeBankSize +
        ([.startSession embRequest] : List (Request Unit Unit Int)).length :=
  have hrun : serveAll (exampleBackend fun _ _ => none) Registry.empty
      [.startSession embRequest] = some halfStarted := rfl
  ⟨hrun, knowledgeBankSize_serveAll _ hrun⟩

theorem sessionsConstructed_halfStarted :
    Reachable (exampleBackend fun _ _ => none) halfStarted ∧
    ((∀ h ∈ halfStarted.gdMap, h ∈ halfStarted.esMap ∧
      ((exampleBackend fun _ _ => none).sessionConfig h).gradientDescentConfig.isSome) ∧
    (∀ h ∈ halfStarted.esMap, ∀ gd,
      ((exampleBackend fun _ _ => none).sessionConfig h).gradientDescentConfig = some gd →
      h ∈ halfStarted.gdMap ∨ (exampleBackend fun _ _ => none).create
        ((exampleBackend fun _ _ => none).sessionConfig h).embeddingDimension gd = none)) :=
  have hr : Reachable (exampleBackend fun _ _ => none) halfStarted :=
    ⟨[.startSession embRequest], rfl⟩
  ⟨hr, sessionsConstructed_of_reachable hr⟩

/-- A reachable registry where a session that `KnowledgeBankSize` counts, and
    whose configuration has a `gradient_descent_config`, has no optimizer:
    the store was inserted before the optimizer factory failed. -/
theorem optimizer_missing_after_start :
    Reachable (exampleBackend fun _ _ => none) halfStarted ∧
    "emb" ∈ halfStarted.esMap ∧
    ((exampleBackend fun _ _ => none).sessionConfig "emb").gradientDescentConfig.isSome ∧
    "emb" ∉ halfStarted.gdMap ∧ halfStarted.knowledgeBankSize = 1 :=
  ⟨⟨[.startSession embRequest], rfl⟩, by decide, rfl, by decide, by decide⟩

end Carls
