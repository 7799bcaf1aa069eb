import Carls.Abstract.Refinement
import Carls.Concurrent.Safety
import Carls.Concurrent.Serializable

/-!
# Concurrent Requests on Different Sessions Implement the Tables

Requests on pairwise different sessions, admitted together, interleave their
lock-held sections in any order. Every interleaving that runs them all to
the end gives each request the status the abstract service of
`Abstract.Service` gives it, and each request on a session the answer it
gives it, a lookup's table included, and ends in a registry that implements
the tables the abstract service leaves after serving them one after another,
in any order. `KnowledgeBankSize` is on no session: the count it reads
depends on how far the other threads have got (`Abstract.Sizes`).

Two facts meet here. On the concrete side, each thread ends where its run
alone from the starting registry ends, and there its handle has the entries
the interleaving leaves (`aloneFrom_of_sections`); a run alone is the
sequential handler (`serve_runs`), which agrees with the abstract one
(`Implements.serve_agrees`). On the abstract side, a request works on its
own handle's table only (`Design.lookup_serve_ne`) and depends on nothing
else (`Design.serve_congr`), so in a serial run on pairwise different
handles each table is the one its request leaves alone, whatever the order
(`Design.lookup_serveAll_of_mem`). The registry is put together handle by
handle (`Implements.of_slot`).

## Theorems

* `Stage.eq_done_of_finished`: A finished handler has returned a reply.
* `sections_refine`: Every complete interleaving on different sessions
  implements every serial run of the tables.
-/

namespace Carls

theorem Stage.eq_done_of_finished {V : Type} {s : Stage V} (hs : s.finished = true) :
    ∃ st resp, s = .done st resp := by
  cases s with
  | done st resp => exact ⟨st, resp, rfl⟩
  | _ => cases hs

/-- Requests whose checked handles are pairwise different, admitted together
    on a registry that implements tables `A`, for a store that behaves as a
    finite map and a pairwise optimizer: every interleaving of their sections
    that runs them all to the end returns each request the status the
    abstract service gives it on `A`, and each request on a session the
    answer it gives it there, and ends in a registry that implements the
    tables the abstract service leaves after serving the requests one after
    another, in any order. -/
theorem sections_refine {K G σ ω V : Type} (b : Backend K G σ ω V) (view : σ → String → Option V)
    (init : String → V) (rule : V → V → V) (hb : MapSemantics b view init)
    (happly : PairwiseApply b rule) {reg₀ : Registry σ ω} {A : Tables V}
    (hi : Implements b view reg₀ A) (rqs : List (Request K G V)) (hd : (entryHandles b rqs).Nodup)
    {c : Config σ ω V}
    (hrun : Relation.ReflTransGen (Sections b) ⟨reg₀, rqs.map (Request.entry b)⟩ c)
    (hdone : ∀ s ∈ c.threads, s.finished = true) :
    List.Forall₂ (fun rq s => ∃ resp, s = .done ((b.design view init rule).serve A rq).status resp ∧
      ((rq.sessionHandle b).isSome → resp.answer = ((b.design view init rule).serve A rq).answer))
      rqs c.threads ∧
    ∀ rqs', rqs'.Perm rqs →
      Implements b view c.registry ((b.design view init rule).serveAll A rqs') := by
  have hh : (rqs.map (Request.entry b)).filterMap Stage.handle = entryHandles b rqs :=
    List.filterMap_map _ _ _
  obtain ⟨hf, hout⟩ := aloneFrom_of_sections (hh ▸ hd) hrun
  have hf' := List.forall₂_map_left_iff.mp hf
  -- Each thread has returned what its request returns alone, on the abstract side too.
  have hboth : List.Forall₂ (fun rq s => (∃ r, serve b reg₀ rq = some r ∧
      Implements b view r.registry ((b.design view init rule).serve A rq).tables ∧
      ∀ h, (rq.entry b).handle = some h → c.registry.slot h = r.registry.slot h) ∧
      ∃ resp, s = .done ((b.design view init rule).serve A rq).status resp ∧
        ((rq.sessionHandle b).isSome → resp.answer = ((b.design view init rule).serve A rq).answer))
      rqs c.threads := by
    refine List.forall₂_iff_zip.mpr ⟨hf'.length_eq, fun {rq s} hm => ?_⟩
    obtain ⟨st, resp, rfl⟩ := Stage.eq_done_of_finished (hdone s (List.of_mem_zip hm).2)
    obtain ⟨r, hr, hst, hans, hir⟩ := hi.serve_agrees hb happly rq
    rcases List.forall₂_zip hf' hm with ⟨reg₁, hrun₁, hsl⟩ | ⟨he, n, e⟩
    · obtain ⟨rfl, rfl, rfl⟩ := (serve_runs hr).done_eq hrun₁
      exact ⟨⟨r, hr, hir, fun h he => (hsl h he).symm⟩, _, by rw [hst], fun _ => hans⟩
    · -- `KnowledgeBankSize` returns `OK` and is on no session.
      rcases Request.entry_of_handle_eq_none (by rw [he]; rfl : (rq.entry b).handle = none) with
        rfl | ⟨st', resp', e'⟩
      · cases e
        exact ⟨⟨r, hr, hir, nofun⟩, _, rfl, nofun⟩
      · cases he.symm.trans e'
  obtain ⟨hQ, hS⟩ := (List.forall₂_and_left _ _).mp hboth
  refine ⟨hS, fun rqs' hp => Implements.of_slot fun h => ?_⟩
  have hdesign : ∀ rq, (b.design view init rule).handle rq = (rq.entry b).handle :=
    design_handle b view init rule
  have hd' : (rqs'.filterMap (b.design view init rule).handle).Nodup := by
    rw [show (b.design view init rule).handle = fun rq => (rq.entry b).handle from funext hdesign]
    exact (hp.filterMap _).nodup_iff.mpr hd
  by_cases hm : h ∈ entryHandles b rqs
  · -- The request on `h` left it as it leaves it alone.
    obtain ⟨rq, hrq, he⟩ := List.mem_filterMap.mp hm
    obtain ⟨r, -, hir, hsl⟩ := hQ rq hrq
    exact ⟨r.registry, _, hir, hsl h he, (b.design view init rule).lookup_serveAll_of_mem A rqs' hd'
      rq (hp.mem_iff.mpr hrq) h ((hdesign rq).trans he)⟩
  · -- No request works on `h`.
    refine ⟨reg₀, A, hi, hout h (hh ▸ hm), (b.design view init rule).lookup_serveAll_ne h A rqs'
      fun rq hrq e =>
        hm (List.mem_filterMap.mpr ⟨rq, hp.mem_iff.mp hrq, (hdesign rq).symm.trans e⟩)⟩

/-- Both requests of `twoSessions`, on a fresh service. -/
theorem sections_refine_twoSessions :
    MapSemantics okBackend id (fun _ => 0) ∧ PairwiseApply okBackend (· - ·) ∧
    Implements okBackend id (Registry.empty : Registry (String → Option Int) Unit) ∅ ∧
    (entryHandles okBackend twoSessions).Nodup ∧
    Relation.ReflTransGen (Sections okBackend)
      ⟨Registry.empty, twoSessions.map (Request.entry okBackend)⟩
      ⟨twoSessionsRegistry, twoSessionsThreads⟩ ∧
    (∀ s ∈ twoSessionsThreads, s.finished = true) ∧
    List.Forall₂ (fun rq s => ∃ resp,
        s = .done ((okBackend.design id (fun _ => 0) (· - ·)).serve ∅ rq).status resp ∧
        ((rq.sessionHandle okBackend).isSome →
          resp.answer = ((okBackend.design id (fun _ => 0) (· - ·)).serve ∅ rq).answer))
      twoSessions twoSessionsThreads ∧
    ∀ rqs', rqs'.Perm twoSessions → Implements okBackend id twoSessionsRegistry
      ((okBackend.design id (fun _ => 0) (· - ·)).serveAll ∅ rqs') :=
  have hd : (entryHandles okBackend twoSessions).Nodup := by decide
  have hdone : ∀ s ∈ twoSessionsThreads, s.finished = true := by decide
  ⟨okBackend_mapSemantics, okBackend_pairwiseApply, implements_empty, hd, twoSessions_sections,
    hdone, sections_refine okBackend id (fun _ => 0) (· - ·) okBackend_mapSemantics
      okBackend_pairwiseApply implements_empty twoSessions hd twoSessions_sections hdone⟩

end Carls
