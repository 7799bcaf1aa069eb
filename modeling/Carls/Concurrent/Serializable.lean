import Carls.Concurrent.Commute
import Carls.Theory.Compose

/-!
# Handlers on Different Sessions Do Not Interfere

Handlers in flight on pairwise different sessions, whatever the
interleaving of their sections: each one ends where it would had it run alone
against the registry they all started from.

`Concurrent.Commute` shows that two sections on different sessions commute.
Here the argument runs along a whole interleaving at once. Each thread is
paired with its run alone (`AloneFrom`): the sections it has taken so far,
run one after another from the starting registry, reach its current stage
and leave its handle's entries as the shared registry has them now. A section
of the thread itself extends its run alone, since the section sees only its
handle's entries (`Stage.step_of_slot_eq`); a section of another thread is on
another handle and leaves those entries alone (`Stage.step_slot_ne`). Handles
no thread is on keep their entries throughout.

A handler's run alone is a function of where it starts, so a thread that
has returned has returned what the sequential handler returns
(`Stage.Runs.done_eq` with `serve_runs`). So, for requests whose checked
handles are pairwise different, every interleaving of their sections gives
each handler the status `serve` gives it on the starting registry and leaves
its handle with the entries `serve` leaves (`serve_of_sections`). Since that
holds of the interleaving that runs them one after another in any order, all
serial orders agree too.

The sessions have to differ. `Update` takes the writer lock twice, and on one
session another handler's section can run between its two branches: a
`Lookup` admitted with an `Update` can read the values the update wrote before
any gradient is applied (`lookup_between_branches`).

## Main definitions

* `AloneFrom`: A thread is where its run alone from a registry would be.
* `twoSessions`, `twoSessionsRegistry`: Two lookups on different sessions,
  and the registry one interleaving of them leaves.

## Theorems

* `Stage.step_handle`, `Stage.Runs.handle`: A handler keeps its handle until
  it returns.
* `Stage.Runs.done_eq`: A handler run alone returns one outcome.
* `AloneFrom.handle_eq`: A thread stays on the handle it started on.
* `AloneFrom.step`, `AloneFrom.frame`: A section of the thread itself, and of
  another.
* `aloneFrom_of_sections`: Along every interleaving, each thread is where its
  run alone is.
* `serve_of_sections`: Every interleaving of requests on different sessions
  gives each the outcome it gets alone.
* `twoSessions_sections`: The two lookups run to the end, section by section.
* `lookup_between_branches`: On one session, a lookup can run between an
  update's two branches.
-/

namespace Carls

theorem forall₂_append_cons {α β : Type} {R : α → β → Prop} {s : β} {post : List β} :
    ∀ {pre : List β} {l : List α}, List.Forall₂ R l (pre ++ s :: post) →
      ∃ pre₀ s₀ post₀, l = pre₀ ++ s₀ :: post₀ ∧ List.Forall₂ R pre₀ pre ∧ R s₀ s ∧
        List.Forall₂ R post₀ post
  | [], _, .cons hs hpost => ⟨[], _, _, rfl, .nil, hs, hpost⟩
  | _ :: _, _, .cons hp hrest =>
    let ⟨pre₀, s₀, post₀, e, hpre, hs, hpost⟩ := forall₂_append_cons hrest
    ⟨_ :: pre₀, s₀, post₀, e ▸ rfl, .cons hp hpre, hs, hpost⟩

section Alone

variable {K G σ ω V : Type} {b : Backend K G σ ω V}

/-- A section leaves its handler on the handle it was on, or returned. -/
theorem Stage.step_handle {reg reg' : Registry σ ω} {s s' : Stage V}
    (hs : s.step b reg = some (s', reg')) : s'.handle = none ∨ s'.handle = s.handle := by
  cases s with
  | startSession _ | startLookup _ | startUpdate _ =>
    obtain ⟨rfl, -⟩ := Prod.mk.inj (Option.some.inj hs)
    unfold afterStart
    split_ifs <;> first | exact .inl rfl | exact .inr rfl
  | lookup _ | gradients _ =>
    obtain ⟨reply, -, ⟨⟩⟩ := Option.map_eq_some'.mp hs
    exact .inl rfl
  | values _ =>
    obtain ⟨reg₁, -, ⟨⟩⟩ := Option.map_eq_some'.mp hs
    exact .inr rfl
  | knowledgeBankSize =>
    obtain ⟨rfl, -⟩ := Prod.mk.inj (Option.some.inj hs)
    exact .inl rfl
  | done _ _ => cases hs

/-- No section leads to `KnowledgeBankSize`'s read: a handler stands there
    only at its entry. -/
theorem Stage.step_ne_knowledgeBankSize {reg reg' : Registry σ ω} {s : Stage V}
    (hs : s.step b reg = some (.knowledgeBankSize, reg')) : False := by
  cases s with
  | startSession _ | startLookup _ | startUpdate _ =>
    have e := congrArg Prod.fst (Option.some.inj hs)
    unfold afterStart at e
    split_ifs at e
  | lookup _ | values _ | gradients _ =>
    obtain ⟨_, -, e⟩ := Option.map_eq_some'.mp hs
    cases (Prod.mk.inj e).1
  | knowledgeBankSize | done _ _ => cases hs

theorem Stage.Runs.eq_of_knowledgeBankSize {p : Stage V × Registry σ ω} {reg : Registry σ ω}
    (h : Stage.Runs b p (.knowledgeBankSize, reg)) : p.1 = .knowledgeBankSize := by
  rcases Relation.ReflTransGen.cases_tail h with e | ⟨q, -, hq⟩
  · rw [← e]
  · exact (Stage.step_ne_knowledgeBankSize hq).elim

/-- Run alone, a handler keeps its handle until it returns. -/
theorem Stage.Runs.handle {p q : Stage V × Registry σ ω} (h : Stage.Runs b p q) :
    q.1.handle = none ∨ q.1.handle = p.1.handle := by
  induction h with
  | refl => exact .inr rfl
  | tail _ hs ih =>
    rcases Stage.step_handle hs with e | e
    · exact .inl e
    · rw [e]
      exact ih

/-- Run alone, a handler returns one reply and leaves one registry: each
    section has one outcome, and a returned handler has no section left. -/
theorem Stage.Runs.done_eq {p : Stage V × Registry σ ω} {st₁ st₂ : Status}
    {resp₁ resp₂ : Response V} {reg₁ reg₂ : Registry σ ω}
    (h₁ : Stage.Runs b p (.done st₁ resp₁, reg₁)) (h₂ : Stage.Runs b p (.done st₂ resp₂, reg₂)) :
    st₁ = st₂ ∧ resp₁ = resp₂ ∧ reg₁ = reg₂ := by
  induction h₁ using Relation.ReflTransGen.head_induction_on with
  | refl =>
    rcases Relation.ReflTransGen.cases_head h₂ with e | ⟨q, hq, -⟩
    · cases e; exact ⟨rfl, rfl, rfl⟩
    · cases hq
  | head hp _ ih =>
    rcases Relation.ReflTransGen.cases_head h₂ with e | ⟨q, hq, h₂⟩
    · subst e; cases hp
    · rw [hp, Option.some.injEq] at hq
      subst hq
      exact ih h₂

variable (b)

/-- Thread `s`, started at `s₀`, is where its sections run alone from `reg₀`
    would take it, and there its handle has the entries `reg` has; or it is a
    `KnowledgeBankSize` that has read the size, which no run alone need
    agree with. -/
def AloneFrom (reg₀ reg : Registry σ ω) (s₀ s : Stage V) : Prop :=
  (∃ reg₁, Stage.Runs b (s₀, reg₀) (s, reg₁) ∧
    ∀ h, s₀.handle = some h → reg₁.slot h = reg.slot h) ∨
  s₀ = .knowledgeBankSize ∧ ∃ n, s = .done Status.OK (.knowledgeBankSize n)

variable {b}

/-- A thread that has not returned is on the handle it started on. -/
theorem AloneFrom.handle_eq {reg₀ reg : Registry σ ω} {s₀ s : Stage V} {h : String}
    (ha : AloneFrom b reg₀ reg s₀ s) (hh : s.handle = some h) : s₀.handle = some h := by
  rcases ha with ⟨reg₁, hrun, -⟩ | ⟨-, n, rfl⟩
  · exact hh ▸ (hrun.handle.resolve_left (by rw [hh]; exact Option.some_ne_none h)).symm
  · cases hh

/-- A section of the thread itself: its run alone takes the same section, or
    it reads the size. -/
theorem AloneFrom.step {reg₀ reg reg' : Registry σ ω} {s₀ s s' : Stage V}
    (ha : AloneFrom b reg₀ reg s₀ s) (hs : s.step b reg = some (s', reg')) :
    AloneFrom b reg₀ reg' s₀ s' := by
  rcases Stage.step_registry hs with ⟨rfl, -⟩ | ⟨h, hh, -⟩
  · -- `KnowledgeBankSize` reads the size and returns it.
    obtain ⟨rfl, -⟩ := Prod.mk.inj (Option.some.inj hs)
    rcases ha with ⟨reg₁, hrun, -⟩ | ⟨-, n, e⟩
    · exact .inr ⟨hrun.eq_of_knowledgeBankSize, _, rfl⟩
    · cases e
  have h₀ := ha.handle_eq hh
  rcases ha with ⟨reg₁, hrun, hsl⟩ | ⟨-, n, rfl⟩
  · obtain ⟨reg₂, hs₁, e⟩ := Stage.step_of_slot_eq hh (hsl h h₀) hs
    refine .inl ⟨reg₂, hrun.tail hs₁, fun h' hh' => ?_⟩
    rw [h₀, Option.some.injEq] at hh'
    exact hh' ▸ e
  · cases hh

/-- A section of another thread: it leaves this thread's handle alone. -/
theorem AloneFrom.frame {reg₀ reg reg' : Registry σ ω} {s₀ s : Stage V} {h : String}
    (ha : AloneFrom b reg₀ reg s₀ s) (hne : s₀.handle ≠ some h)
    (hslot : ∀ h', h' ≠ h → reg'.slot h' = reg.slot h') : AloneFrom b reg₀ reg' s₀ s := by
  rcases ha with ⟨reg₁, hrun, hsl⟩ | hsize
  · refine .inl ⟨reg₁, hrun, fun h' hh' => ?_⟩
    rw [hsl h' hh', hslot h' fun e => hne (e ▸ hh')]
  · exact .inr hsize

theorem forall₂_aloneFrom_frame {reg₀ reg reg' : Registry σ ω} {h : String}
    (hslot : ∀ h', h' ≠ h → reg'.slot h' = reg.slot h') {l u : List (Stage V)}
    (hl : ∀ s₀ ∈ l, s₀.handle ≠ some h) (hf : List.Forall₂ (AloneFrom b reg₀ reg) l u) :
    List.Forall₂ (AloneFrom b reg₀ reg') l u :=
  ((List.forall₂_and_left l u).mpr ⟨hl, hf⟩).imp fun _ _ ⟨hne, ha⟩ => ha.frame hne hslot

/-- Along every interleaving of the sections of threads on pairwise different
    handles, each thread is where its run alone from the starting registry
    is, with its handle's entries as they are now; a handle no thread is on
    keeps its entries. -/
theorem aloneFrom_of_sections {reg₀ : Registry σ ω} {ts₀ : List (Stage V)}
    (hd : (ts₀.filterMap Stage.handle).Nodup) {c : Config σ ω V}
    (hrun : Relation.ReflTransGen (Sections b) ⟨reg₀, ts₀⟩ c) :
    List.Forall₂ (AloneFrom b reg₀ c.registry) ts₀ c.threads ∧
    ∀ h, h ∉ ts₀.filterMap Stage.handle → c.registry.slot h = reg₀.slot h := by
  induction hrun with
  | refl => exact ⟨List.forall₂_same.mpr fun _ _ => .inl ⟨reg₀, .refl, fun _ _ => rfl⟩, fun _ _ => rfl⟩
  | tail _ hs ih =>
    obtain ⟨hf, hout⟩ := ih
    cases hs with
    | run pre post hstep =>
      obtain ⟨pre₀, s₀, post₀, rfl, hpre, hs, hpost⟩ := forall₂_append_cons hf
      rcases Stage.step_registry hstep with ⟨rfl, rfl⟩ | ⟨h, hh, -⟩
      · -- `KnowledgeBankSize` only reads.
        exact ⟨List.rel_append hpre (.cons (hs.step hstep) hpost), hout⟩
      have h₀ := hs.handle_eq hh
      -- No other thread is on the handle of the section that ran.
      have hmem : h ∈ (pre₀ ++ s₀ :: post₀).filterMap Stage.handle :=
        List.mem_filterMap.mpr ⟨s₀, List.mem_append_right _ (List.mem_cons_self _ _), h₀⟩
      rw [List.filterMap_append, List.filterMap_cons_some h₀, List.nodup_middle,
        List.nodup_cons, List.mem_append, not_or] at hd
      have hpre' : ∀ t ∈ pre₀, t.handle ≠ some h := fun t ht e =>
        hd.1.1 (List.mem_filterMap.mpr ⟨t, ht, e⟩)
      have hpost' : ∀ t ∈ post₀, t.handle ≠ some h := fun t ht e =>
        hd.1.2 (List.mem_filterMap.mpr ⟨t, ht, e⟩)
      have hslot := fun h' (hne : h' ≠ h) => Stage.step_slot_ne hstep hh hne
      refine ⟨List.rel_append (forall₂_aloneFrom_frame hslot hpre' hpre)
        (.cons (hs.step hstep)
          (forall₂_aloneFrom_frame hslot hpost' hpost)), fun h' hn => ?_⟩
      rw [hslot h' fun e => hn (e ▸ hmem), hout h' hn]

end Alone

/-- Requests whose checked handles are pairwise different, admitted together
    on registry `reg₀`: along every interleaving of their sections, each
    handler that has returned has returned the status `serve` gives it on
    `reg₀`, with the response `serve` gives it there when it is on a session,
    and its handle has the entries `serve` leaves there; every handle no
    checked request is on keeps the entries it had. -/
theorem serve_of_sections {K G σ ω V : Type} (b : Backend K G σ ω V) (reg₀ : Registry σ ω)
    (rqs : List (Request K G V)) {c : Config σ ω V} (hd : (entryHandles b rqs).Nodup)
    (hrun : Relation.ReflTransGen (Sections b) ⟨reg₀, rqs.map (Request.entry b)⟩ c) :
    List.Forall₂ (fun rq s => ∀ st resp, s = .done st resp → ∃ r, serve b reg₀ rq = some r ∧
      r.status = st ∧ ((rq.sessionHandle b).isSome → r.response = resp) ∧
      ∀ h, (rq.entry b).handle = some h → c.registry.slot h = r.registry.slot h)
      rqs c.threads ∧
    ∀ h, h ∉ entryHandles b rqs → c.registry.slot h = reg₀.slot h := by
  have hh : (rqs.map (Request.entry b)).filterMap Stage.handle = entryHandles b rqs :=
    List.filterMap_map _ _ _
  obtain ⟨hf, hout⟩ := aloneFrom_of_sections (hh ▸ hd) hrun
  refine ⟨(List.forall₂_map_left_iff.mp hf).imp fun rq s ha st resp hst => ?_, hh ▸ hout⟩
  subst hst
  obtain ⟨r, hr⟩ := Option.isSome_iff_exists.mp (isSome_serve reg₀ rq)
  rcases ha with ⟨reg₁, hrun₁, hsl⟩ | ⟨he, n, e⟩
  · -- A returned thread's run alone is the sequential handler's run.
    obtain ⟨rfl, rfl, rfl⟩ := (serve_runs hr).done_eq hrun₁
    exact ⟨r, hr, rfl, fun _ => rfl, fun h he => (hsl h he).symm⟩
  · -- `KnowledgeBankSize` returns `OK`, and is on no session.
    rcases Request.entry_of_handle_eq_none (by rw [he]; rfl : (rq.entry b).handle = none) with
      rfl | ⟨st', resp', e'⟩
    · cases hr
      cases e
      exact ⟨_, rfl, rfl, nofun, nofun⟩
    · cases he.symm.trans e'

/-- On one session the interleavings are not all serial. An `Update` with
    values and a pure `Lookup` of its session, admitted together on a
    registry where the session starts, with `kb` its store once started, can
    interleave so that the lookup's section runs between the update's two
    branches, where it reads the values written and no gradient applied. -/
theorem lookup_between_branches {K G σ ω V : Type} (b : Backend K G σ ω V)
    (view : σ → String → Option V) (init : String → V) (hb : MapSemantics b view init)
    (reg : Registry σ ω) {request : UpdateRequest V} {keys : List String} {kb : σ}
    (hh : request.sessionHandle ≠ "") (hv : request.values.keys ≠ []) (hk : keys ≠ [])
    (hok : (startSessionIfNecessary b reg request.sessionHandle).1.code = .ok)
    (hkb : (startSessionIfNecessary b reg request.sessionHandle).2.esMap.lookup
      request.sessionHandle = some kb) :
    ∃ reg₁ r, Relation.ReflTransGen (Sections b)
        ⟨reg, [Request.entry b (.update request),
          Request.entry b (.lookup ⟨request.sessionHandle, keys, false⟩)]⟩
        ⟨reg₁, [.gradients request, .lookup ⟨request.sessionHandle, keys, false⟩]⟩ ∧
      lookupSection b reg₁ ⟨request.sessionHandle, keys, false⟩ = some r ∧
      r.status = Status.OK ∧
      ∀ k, r.response.embeddingTable.lookup k =
        if k ∈ keys then overwrite (view kb) request.values.keys request.values.values k
        else none := by
  obtain ⟨reg₁, kb₁, hw, hkb₁, -, hview⟩ := writeValues_of_mapSemantics hb hkb
  obtain ⟨r, hr, hst, -, htable⟩ := lookupSection_read hb hkb₁ keys
  refine ⟨reg₁, r, ?_, hr, hst, fun k => by rw [htable, hview]⟩
  -- The update's start, then the lookup's start, which finds nothing to do,
  -- then the update's values branch.
  have hfix := startSessionIfNecessary_of_storeWrite (Registry.StoreWrite.refl
    request.sessionHandle (startSessionIfNecessary b reg request.sessionHandle).2)
  have e₁ : Request.entry b (.update request) = .startUpdate request := by
    simp [Request.entry, hh, hv]
  have e₂ : Request.entry b (.lookup ⟨request.sessionHandle, keys, false⟩) =
      .startLookup ⟨request.sessionHandle, keys, false⟩ := by
    simp [Request.entry, hh, hk]
  have s₁ : (Stage.startUpdate request).step b reg =
      some (.values request, (startSessionIfNecessary b reg request.sessionHandle).2) := by
    simp [Stage.step, afterStart, hok]
  have s₂ : (Stage.startLookup ⟨request.sessionHandle, keys, false⟩).step b
      (startSessionIfNecessary b reg request.sessionHandle).2 =
      some (.lookup ⟨request.sessionHandle, keys, false⟩,
        (startSessionIfNecessary b reg request.sessionHandle).2) := by
    simp [Stage.step, afterStart, hfix, hok]
  have s₃ : (Stage.values request).step b (startSessionIfNecessary b reg request.sessionHandle).2 =
      some (.gradients request, reg₁) := by
    simp [Stage.step, hw]
  rw [e₁, e₂]
  exact .tail (.tail (.single (Sections.run [] [.startLookup ⟨request.sessionHandle, keys, false⟩] s₁))
    (Sections.run [.values request] [] s₂))
    (Sections.run [] [.lookup ⟨request.sessionHandle, keys, false⟩] s₃)

/-- `writeThenStep` and a pure lookup of `first`, on a fresh service. -/
theorem lookup_between_branches_emb :
    MapSemantics okBackend id (fun _ => 0) ∧ writeThenStep.sessionHandle ≠ "" ∧
    writeThenStep.values.keys ≠ [] ∧ ["first"] ≠ [] ∧
    (startSessionIfNecessary okBackend Registry.empty "emb").1.code = .ok ∧
    (startSessionIfNecessary okBackend Registry.empty "emb").2.esMap.lookup "emb" =
      some (fun _ => none) ∧
    ∃ reg₁ r, Relation.ReflTransGen (Sections okBackend)
        ⟨Registry.empty, [Request.entry okBackend (.update writeThenStep),
          Request.entry okBackend (.lookup ⟨"emb", ["first"], false⟩)]⟩
        ⟨reg₁, [.gradients writeThenStep, .lookup ⟨"emb", ["first"], false⟩]⟩ ∧
      lookupSection okBackend reg₁ ⟨"emb", ["first"], false⟩ = some r ∧
      r.status = Status.OK ∧
      ∀ k, r.response.embeddingTable.lookup k =
        if k ∈ ["first"] then
          overwrite (id fun _ => none) writeThenStep.values.keys writeThenStep.values.values k
        else none :=
  have hok : (startSessionIfNecessary okBackend Registry.empty "emb").1.code = .ok := rfl
  have hkb : (startSessionIfNecessary okBackend Registry.empty "emb").2.esMap.lookup "emb" =
      some (fun _ => none) := rfl
  ⟨okBackend_mapSemantics, by decide, by decide, by decide, hok, hkb,
    lookup_between_branches okBackend id (fun _ => 0) okBackend_mapSemantics Registry.empty
      (by decide) (by decide) (by decide) hok hkb⟩

/-- A `StartSession` of `emb` and a lookup with update of session `other`,
    admitted together on a fresh service. -/
def twoSessions : List (Request Unit Unit Int) :=
  [.startSession embRequest, .lookup ⟨"other", ["a"], true⟩]

/-- The registry after the interleaving of `twoSessions` in which the
    lookup's start runs first, then the start of `emb`, then the lookup's
    section. -/
def twoSessionsRegistry : Registry (String → Option Int) Unit :=
  ((lookupSection okBackend (startSessionIfNecessary okBackend
      (startSessionIfNecessary okBackend Registry.empty "other").2 "emb").2
    ⟨"other", ["a"], true⟩).map Reply.registry).getD Registry.empty

/-- What the handlers of `twoSessions` return: the handle `emb`, and the
    vector the lookup created for `a`. -/
def twoSessionsThreads : List (Stage Int) :=
  [.done Status.OK (.startSession "emb"), .done Status.OK (.lookup ⟨(∅ : ProtoMap Int).insert "a" 0⟩)]

/-- The lookup's start, then the start of `emb`, then the lookup's section. -/
theorem twoSessions_sections :
    Relation.ReflTransGen (Sections okBackend)
      ⟨Registry.empty, twoSessions.map (Request.entry okBackend)⟩
      ⟨twoSessionsRegistry, twoSessionsThreads⟩ :=
  .tail (.tail (.single (Sections.run [Request.entry okBackend (.startSession embRequest)] [] rfl))
    (Sections.run [] [.lookup ⟨"other", ["a"], true⟩] rfl))
    (Sections.run [.done Status.OK (.startSession "emb")] [] rfl)

theorem serve_of_sections_twoSessions :
    (entryHandles okBackend twoSessions).Nodup ∧
    Relation.ReflTransGen (Sections okBackend)
      ⟨Registry.empty, twoSessions.map (Request.entry okBackend)⟩
      ⟨twoSessionsRegistry, twoSessionsThreads⟩ ∧
    List.Forall₂ (fun rq s => ∀ st resp, s = .done st resp → ∃ r,
        serve okBackend Registry.empty rq = some r ∧ r.status = st ∧
        ((rq.sessionHandle okBackend).isSome → r.response = resp) ∧
        ∀ h, (rq.entry okBackend).handle = some h → twoSessionsRegistry.slot h = r.registry.slot h)
      twoSessions twoSessionsThreads ∧
    ∀ h, h ∉ entryHandles okBackend twoSessions →
      twoSessionsRegistry.slot h = Registry.empty.slot h :=
  have hd : (entryHandles okBackend twoSessions).Nodup := by decide
  ⟨hd, twoSessions_sections,
    serve_of_sections okBackend Registry.empty twoSessions hd twoSessions_sections⟩

end Carls
