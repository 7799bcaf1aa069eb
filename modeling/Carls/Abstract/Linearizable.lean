import Carls.Abstract.Sizes

/-!
# Starts, Lookups and Counts Are Linearizable

`Lookup` takes the writer lock for its start and the reader lock for its
section, and a lookup with update writes its store under the reader lock, so
lookups on one session interleave their sections in any order. Unlike the two
branches of an `Update` (`lookup_between_branches`), this does no harm.
Requests other than `Update` write in at most one section, so every
interleaving of their sections, on any sessions, the same ones included,
that runs them all to the end is a serial run that returns each request the
status and the answer its thread returned (`linearizable_of_sections`).

More holds for them (`reads_linearizable`). None overwrites a vector, so the
tables a serial run of them leaves do not depend on its order
(`Design.afterReads_perm`): the final registry implements every order. And
none changes whether a handle has a table, or can have a new store's, so each
gets the status it gets on the first tables, whatever ran before it
(`Design.status_serve_of_reads`). The answers do depend on the order: a pure
lookup of a key another lookup creates reads nothing before it and the new
vector after, and `KnowledgeBankSize` counts the sessions started before it.

## Main definitions

* `sameSession`, `sameSessionRegistry`, `sameSessionThreads`: Two lookups
  with update of one session, and the registry and replies one interleaving
  of them leaves.

## Theorems

* `Design.status_of_mem_zip_results`: A serial run of such requests returns each the
  status it gets alone.
* `reads_linearizable`: Starts, lookups and counts on any sessions are
  linearizable, get the statuses they get alone, and implement every serial
  run of the tables.
* `sameSession_sections`: Two lookups of one session, their sections
  interleaved.
-/

namespace Carls

theorem Request.atomic_of_reads {K G V : Type} {rq : Request K G V} (hr : rq.reads = true) :
    rq.atomic = true := by
  cases rq <;> first | rfl | cases hr

theorem mem_zip_map_some {α β : Type} {l : List α} {R : List β} {a : α} {x : β}
    (hm : (a, some x) ∈ l.zip (R.map some)) : (a, x) ∈ l.zip R := by
  rw [List.zip_map_right] at hm
  obtain ⟨⟨a', x'⟩, hm', e⟩ := List.mem_map.mp hm
  obtain ⟨rfl, e'⟩ := Prod.mk.inj e
  rwa [← Option.some.inj e']

namespace Design

variable {K G V : Type} (D : Design K G V)

/-- What a serial run of requests other than `Update` returns one of them has
    the status that request gets on the first tables. -/
theorem status_of_mem_zip_results {A : Tables V} {lin : List (Request K G V)}
    (hr : ∀ rq ∈ lin, rq.reads = true) {rq : Request K G V} {o : Status × Answer V}
    (hm : (rq, o) ∈ lin.zip (D.results A lin)) : o.1 = (D.serve A rq).status := by
  obtain ⟨pre, post, rfl, rfl⟩ := D.exists_of_mem_zip_results hm
  exact D.status_serve_of_reads (hr rq (List.mem_append_right _ (List.mem_cons_self _ _)))
    fun h => D.isSome_or_fresh_serveAll_of_reads h A pre fun x hx => hr x (List.mem_append_left _ hx)

end Design

/-- Requests other than `Update`, on any sessions, admitted together on a
    registry that implements tables `A`, for a store that behaves as a finite
    map: every interleaving of their sections that runs them all to the end is
    a serial run that returns each request the status and the answer its
    thread returned; each request's status is the one the abstract service
    gives it on `A`; and the final registry implements the tables the
    abstract service leaves after serving the requests one after another, in
    any order. -/
theorem reads_linearizable {K G σ ω V : Type} (b : Backend K G σ ω V)
    (view : σ → String → Option V) (init : String → V) (rule : V → V → V)
    (hb : MapSemantics b view init) {reg₀ : Registry σ ω} {A : Tables V}
    (hi : Implements b view reg₀ A) (rqs : List (Request K G V))
    (hr : ∀ rq ∈ rqs, rq.reads = true) {c : Config σ ω V}
    (hrun : Relation.ReflTransGen (Sections b) ⟨reg₀, rqs.map (Request.entry b)⟩ c)
    (hdone : ∀ s ∈ c.threads, s.finished = true) :
    (∃ lin : List (Request K G V),
      (lin.zip (((b.design view init rule).results A lin).map some)).Perm
        (rqs.zip (c.threads.map Stage.reply)) ∧
      Implements b view c.registry ((b.design view init rule).serveAll A lin)) ∧
    List.Forall₂ (fun rq s => ∃ resp, s = .done ((b.design view init rule).serve A rq).status resp)
      rqs c.threads ∧
    ∀ rqs', rqs'.Perm rqs →
      Implements b view c.registry ((b.design view init rule).serveAll A rqs') := by
  obtain ⟨lin, hperm, hi'⟩ := linearizable_of_sections hb hi rqs
    (fun rq hm e => absurd (hr rq hm) (by rw [e]; decide) :
      ∀ rq ∈ rqs, rq.reads = false → PairwiseApply b rule)
    (fun rq hm => Request.atomic_of_reads (hr rq hm)) hrun hdone
  have hlen := (sections_sizesErased hrun).sizes.length_eq
  -- The serial run holds the requests, each once.
  have hlin : lin.Perm rqs := by
    have hp := hperm.map Prod.fst
    rwa [List.map_fst_zip _ _ (by simp [Design.length_results]),
      List.map_fst_zip _ _ (by simp [hlen])] at hp
  have hrlin : ∀ rq ∈ lin, rq.reads = true := fun rq hm => hr rq (hlin.subset hm)
  refine ⟨⟨lin, hperm, hi'⟩, List.forall₂_iff_zip.mpr ⟨hlen, fun {rq s} hm => ?_⟩,
    fun rqs' hp => hi'.congr fun h => ?_⟩
  · -- Each thread returned the status its request gets on `A`.
    obtain ⟨st, resp, rfl⟩ := Stage.eq_done_of_finished (hdone s (List.of_mem_zip hm).2)
    have hm' : (rq, some (st, resp.answer)) ∈ lin.zip
        (((b.design view init rule).results A lin).map some) := by
      refine hperm.mem_iff.mpr ?_
      rw [List.zip_map_right]
      exact List.mem_map_of_mem _ hm
    exact ⟨resp, by
      rw [← (b.design view init rule).status_of_mem_zip_results hrlin (mem_zip_map_some hm')]⟩
  · -- The tables do not depend on the order.
    rw [(b.design view init rule).lookup_serveAll_of_reads h A rqs'
        fun rq hm => hr rq (hp.mem_iff.mp hm),
      (b.design view init rule).afterReads_perm A (hp.trans hlin.symm) h,
      ← (b.design view init rule).lookup_serveAll_of_reads h A lin hrlin]

/-- Two lookups with update of one session, `emb`, admitted together. -/
def sameSession : List (Request Unit Unit Int) :=
  [.lookup ⟨"emb", ["a"], true⟩, .lookup ⟨"emb", ["b"], true⟩]

/-- The registry after the interleaving of `sameSession` in which both starts
    run, then the second lookup's section, then the first's. -/
def sameSessionRegistry : Registry (String → Option Int) Unit :=
  let started := (startSessionIfNecessary okBackend
    (startSessionIfNecessary okBackend Registry.empty "emb").2 "emb").2
  let second := ((lookupSection okBackend started ⟨"emb", ["b"], true⟩).map Reply.registry).getD
    Registry.empty
  ((lookupSection okBackend second ⟨"emb", ["a"], true⟩).map Reply.registry).getD Registry.empty

/-- What the lookups of `sameSession` return: each the vector it created. -/
def sameSessionThreads : List (Stage Int) :=
  [.done Status.OK (.lookup ⟨(∅ : ProtoMap Int).insert "a" 0⟩),
    .done Status.OK (.lookup ⟨(∅ : ProtoMap Int).insert "b" 0⟩)]

/-- Both starts, then the second lookup's section, then the first's. -/
theorem sameSession_sections :
    Relation.ReflTransGen (Sections okBackend)
      ⟨Registry.empty, sameSession.map (Request.entry okBackend)⟩
      ⟨sameSessionRegistry, sameSessionThreads⟩ :=
  .tail (.tail (.tail (.single (Sections.run [] [.startLookup ⟨"emb", ["b"], true⟩] rfl))
    (Sections.run [.lookup ⟨"emb", ["a"], true⟩] [] rfl))
    (Sections.run [.lookup ⟨"emb", ["a"], true⟩] [] rfl))
    (Sections.run [] [.done Status.OK (.lookup ⟨(∅ : ProtoMap Int).insert "b" 0⟩)] rfl)

/-- Both lookups of `sameSession`, on a fresh service. -/
theorem reads_linearizable_sameSession :
    MapSemantics okBackend id (fun _ => 0) ∧
    Implements okBackend id (Registry.empty : Registry (String → Option Int) Unit) ∅ ∧
    (∀ rq ∈ sameSession, rq.reads = true) ∧
    Relation.ReflTransGen (Sections okBackend)
      ⟨Registry.empty, sameSession.map (Request.entry okBackend)⟩
      ⟨sameSessionRegistry, sameSessionThreads⟩ ∧
    (∀ s ∈ sameSessionThreads, s.finished = true) ∧
    (∃ lin : List (Request Unit Unit Int),
      (lin.zip (((okBackend.design id (fun _ => 0) (· - ·)).results ∅ lin).map some)).Perm
        (sameSession.zip (sameSessionThreads.map Stage.reply)) ∧
      Implements okBackend id sameSessionRegistry
        ((okBackend.design id (fun _ => 0) (· - ·)).serveAll ∅ lin)) ∧
    List.Forall₂ (fun rq s =>
      ∃ resp, s = .done ((okBackend.design id (fun _ => 0) (· - ·)).serve ∅ rq).status resp)
      sameSession sameSessionThreads ∧
    ∀ rqs', rqs'.Perm sameSession → Implements okBackend id sameSessionRegistry
      ((okBackend.design id (fun _ => 0) (· - ·)).serveAll ∅ rqs') :=
  have hr : ∀ rq ∈ sameSession, rq.reads = true := by decide
  have hdone : ∀ s ∈ sameSessionThreads, s.finished = true := by decide
  ⟨okBackend_mapSemantics, implements_empty, hr, sameSession_sections, hdone,
    reads_linearizable okBackend id (fun _ => 0) (· - ·) okBackend_mapSemantics implements_empty
      sameSession hr sameSession_sections hdone⟩

end Carls
